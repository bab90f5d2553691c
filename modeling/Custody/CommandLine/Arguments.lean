import Custody.Address
/-!
# Arguments

The words of a command line as a request. An option takes its value behind an equals sign or as the
next word, which then does not start with a hyphen; behind two hyphens every word is a path. Words
that make no request are refused.
-/

namespace Custody

/-- What to run, as it was asked for. -/
structure RunRequest where
  function : String
  typeArgs : List String
  args : List String
  state : Option String
  sender : Option Address

inductive Command where
  | check (sequential : Bool)
  | run (request : RunRequest)
  | test

/-- A command on the modules in some files. -/
structure Invocation where
  config : Option String
  command : Command
  /-- At least one. -/
  paths : List String

inductive Request where
  | version
  | help
  | perform (invocation : Invocation)

namespace CommandLine

/-- What an option's value has to be. -/
inductive Kind where
  | text
  | path
  | address
deriving DecidableEq

/-- An option with a value. -/
structure Valued where
  name : String
  kind : Kind
  repeatable : Bool := false

/-- The options of a command. -/
structure Grammar where
  flags : List String := []
  valued : List Valued := []

def configOption : Valued := { name := "config", kind := .path }

def checkGrammar : Grammar := { flags := ["sequential"], valued := [configOption] }

def runGrammar : Grammar where
  valued := [configOption, { name := "function", kind := .text },
    { name := "type-arg", kind := .text, repeatable := true },
    { name := "arg", kind := .text, repeatable := true },
    { name := "state", kind := .path }, { name := "sender", kind := .address }]

def testGrammar : Grammar := { valued := [configOption] }

/-- Words of a command, taken apart; all in the order given. -/
structure Words where
  flags : List String := []
  values : List (String × String) := []
  paths : List String := []

namespace Words

def all (words : Words) (name : String) : List String :=
  (words.values.filter (·.1 = name)).map (·.2)

def first? (words : Words) (name : String) : Option String := words.values.lookup name

end Words

/-- A value of the kind an option asks for. -/
def Kind.accepts (kind : Kind) (value : String) : Bool :=
  match kind with
  | .text => true
  | .path => !value.isEmpty
  | .address => (Address.parse? value).isSome

/-- A word that is no option: it has no hyphen in front, or is one hyphen. -/
def isPlain (word : String) : Bool := !word.startsWith "-" || word = "-"

/-- The name of a long option and its attached value, if the word is one. -/
def longOption? (word : String) : Option (String × Option String) :=
  match word.toList with
  | '-' :: '-' :: rest =>
    let name := String.ofList (rest.takeWhile (· ≠ '='))
    match rest.dropWhile (· ≠ '=') with
    | _ :: value => some (name, some (String.ofList value))
    | [] => some (name, none)
  | _ => none

/-- Record a value, unless the option was already given or asks for another kind. -/
def Words.give? (words : Words) (option : Valued) (value : String) : Option Words :=
  if !option.repeatable && (words.first? option.name).isSome then none
  else if option.kind.accepts value then
    some { words with values := words.values ++ [(option.name, value)] }
  else none

def Words.addPath? (words : Words) (path : String) : Option Words :=
  if path.isEmpty then none else some { words with paths := words.paths ++ [path] }

def asksHelp (word : String) : Bool := word = "--help" || word.startsWith "-h"

/-- The words of a command: a request for help, or the words taken apart. -/
def readWords (grammar : Grammar) : Words → List String → Option (Option Words)
  | words, [] => some (some words)
  | words, word :: rest =>
    if word = "--" then (rest.foldlM Words.addPath? words).map some
    else if asksHelp word then some none
    else if isPlain word then
      match words.addPath? word with
      | some words => readWords grammar words rest
      | none => none
    else
      match longOption? word with
      | none => none
      | some (name, attached) =>
        match grammar.valued.find? (·.name = name), attached, rest with
        | some option, some value, rest =>
          match words.give? option value with
          | some words => readWords grammar words rest
          | none => none
        | some option, none, value :: rest =>
          if isPlain value then
            match words.give? option value with
            | some words => readWords grammar words rest
            | none => none
          else none
        | some _, none, [] => none
        | none, attached, rest =>
          if name ∈ grammar.flags && attached.isNone && name ∉ words.flags then
            readWords grammar { words with flags := words.flags ++ [name] } rest
          else none

/-- The command that a word names, with its options. -/
def grammarOf? : String → Option Grammar
  | "check" => some checkGrammar
  | "run" => some runGrammar
  | "test" => some testGrammar
  | _ => none

/-- The command that the words ask for, if nothing is missing. -/
def commandOf? (name : String) (words : Words) : Option Command :=
  match name with
  | "check" => some (.check ("sequential" ∈ words.flags))
  | "run" => do
    return .run {
      function := ← words.first? "function"
      typeArgs := words.all "type-arg"
      args := words.all "arg"
      state := words.first? "state"
      sender := (words.first? "sender").bind Address.parse? }
  | "test" => some .test
  | _ => none

/-- The words behind the name of a command. A settings file named there wins over one named
before. -/
def readCommand (name : String) (config : Option String) (rest : List String) : Option Request := do
  match ← readWords (← grammarOf? name) {} rest with
  | none => return .help
  | some words =>
    if words.paths.isEmpty then none
    else
      let command ← commandOf? name words
      return .perform { config := words.first? "config" <|> config, command, paths := words.paths }

/-- The words behind the name of the help command, which may name a command. -/
def readHelp : List String → Option Request
  | [] => some .help
  | [name] => if (grammarOf? name).isSome || name = "help" then some .help else none
  | _ => none

/-- Read a command line; `config` is the settings file named so far. -/
def readFrom (config : Option String) : List String → Option Request
  | [] => none
  | word :: rest =>
    if asksHelp word then some .help
    else if word = "--version" || word.startsWith "-V" then some .version
    else if isPlain word then
      if word = "help" then readHelp rest else readCommand word config rest
    else
      match longOption? word, rest with
      | some ("config", some path), rest =>
        if config.isNone && !path.isEmpty then readFrom (some path) rest else none
      | some ("config", none), path :: rest =>
        if config.isNone && isPlain path && !path.isEmpty then readFrom (some path) rest else none
      | _, _ => none

end CommandLine

/-- The request that a command line makes, if it makes one. -/
def Request.parse? (words : List String) : Option Request := CommandLine.readFrom none words

end Custody
