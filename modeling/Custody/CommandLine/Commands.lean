import Custody.CommandLine.Arguments
import Custody.Document.Modules
import Custody.Document.Values
import Custody.Machine.Entry
import Custody.Settings.Search
import Custody.Spelling.Types
import Custody.Spelling.Values
/-!
# Commands

Checking, running and testing the modules in some files. A command prints a text and may fail; only
`run` writes, and only behind an execution that returned.
-/

namespace Custody

/-- Why a command fails. -/
inductive CommandError where
  | settings (fault : SettingsFault)
  | file (fault : FileFault)
  | notModule (path : String)
  | refused (problems : List Diagnostic)
  | spelling (error : SpellingError)
  | unknownFunction (function : FunctionId)
  | missingArgument (function : FunctionId) (param : String) (ty : Ty)
  | unusedArguments (function : FunctionId) (count : Nat)
  | malformedState
  /-- A reference would have to be written. -/
  | unwritable
  | failure (failure : Failure)
  | outOfFuel
  | failedTests (count : Nat)

namespace CommandError

def message : CommandError → String
  | .settings fault => fault.message
  | .file fault => fault.message
  | .notModule path => path ++ " is not a valid module declaration"
  | .refused problems => refusalMessage problems.length
  | .spelling error => error.message
  | .unknownFunction function => "unknown function `" ++ function.render ++ "`"
  | .missingArgument function param ty =>
    "missing `--arg` for parameter `" ++ param ++ ": " ++ ty.render ++ "` of `" ++
      function.render ++ "`"
  | .unusedArguments function count =>
    toString count ++ " unused `--arg` value(s) for `" ++ function.render ++ "`"
  | .malformedState => "malformed storage snapshot"
  | .unwritable => "the enum variant Value::Ref cannot be serialized"
  | .failure cause => cause.message
  | .outOfFuel => "a loop took too many rounds"
  | .failedTests count => toString count ++ " test(s) failed"

def ofStop : Stop → CommandError
  | .failure cause => .failure cause
  | .outOfFuel => .outOfFuel

end CommandError

/-- What a command leaves behind: the text it printed, and why it failed, if it did. -/
structure Outcome where
  printed : String := ""
  error : Option CommandError := none

namespace Outcome

def failed (error : CommandError) : Outcome := { error := some error }

end Outcome

/-! ## Programs and arguments -/

/-- Rounds a loop may take. -/
def Setup.defaultLoopBound : Nat := Nat.pow 2 62

/-- The machine for a program under some settings. -/
def Settings.setup (settings : Settings) (program : Program) : Setup :=
  { program, maxCallDepth := settings.maxCallDepth, loopBound := Setup.defaultLoopBound }

variable (u : Universe) (function : FunctionId) (typeArgs : List Ty) (sender : Address)

/-- The values of the parameters: references to signers take the sender, the others the words in
order. -/
def fillParams : List (String × Ty) → List String → Except CommandError (List Value)
  | [], [] => .ok []
  | [], words => .error (.unusedArguments function words.length)
  | (param, written) :: params, words =>
    match written.subst typeArgs, words with
    | .ref _ .signer, words => do
      return .signer sender :: (← fillParams params words)
    | ty, [] => .error (.missingArgument function param ty)
    | ty, word :: words => do
      let value ← (Value.parse u ty word).mapError .spelling
      return value :: (← fillParams params words)

/-- The arguments of a call, spelled by words. -/
def Universe.spelledArguments (u : Universe) (function : FunctionId) (typeArgs : List Ty)
    (words : List String) (sender : Address) : Except CommandError (List Value) :=
  match u.function? function with
  | none => .error (.unknownFunction function)
  | some signature => fillParams u function typeArgs sender signature.params words

/-- What a run returned and left in storage can be written down. -/
def Receipt.isWritable (receipt : Receipt) : Bool :=
  receipt.value.toJson?.isSome && receipt.store.snapshot.all (·.value.toJson?.isSome)

/-- The report of a run that can be written down. -/
def Receipt.toJson (receipt : Receipt) (function : FunctionId) : Json :=
  .record [("function", .text function.render), ("return", receipt.value.toJson),
    ("writes", .nat receipt.writes), ("storage", receipt.store.toJson)]

/-! ## Tests -/

/-- The marks of tests, in the order in which they are run. -/
def testMarks : List String := ["test", "evm_test"]

/-- Every test of a program once. -/
def Program.tests (program : Program) : List FunctionId :=
  (testMarks.flatMap program.functionsMarked).foldl
    (fun tests id => if id ∈ tests then tests else tests ++ [id]) []

/-- Run one test over empty storage. -/
def Setup.runTest (setup : Setup) (sender : Address) (id : FunctionId) :
    Except CommandError Receipt := do
  let args ← setup.program.types.spelledArguments id [] [] sender
  (setup.execute ∅ id [] args).mapError .ofStop

/-- The line that reports a test, and whether it passed. -/
def testLine (id : FunctionId) : Except CommandError Receipt → String × Bool
  | .ok _ => ("test " ++ id.render ++ " ... ok\n", true)
  | .error error => ("test " ++ id.render ++ " ... FAILED: " ++ error.message ++ "\n", false)

/-- Run every test of a program. -/
def Settings.runTests (settings : Settings) (program : Program) : Outcome :=
  match program.tests with
  | [] => { printed := "slate test: no tests found\n" }
  | tests =>
    let setup := settings.setup program
    let lines := tests.map fun id => testLine id (setup.runTest settings.sender id)
    let failed := lines.countP (!·.2)
    let passed := lines.length - failed
    { printed := String.join (lines.map (·.1)) ++ "test result: " ++ toString passed ++
        " passed; " ++ toString failed ++ " failed\n"
      error := if failed = 0 then none else some (.failedTests failed) }

/-! ## Commands on files -/

section

variable {m : Type → Type} [Monad m] (files : Files m)

/-- The module in a file. -/
def loadModule (path : String) : m (Except CommandError Module) := do
  match ← files.read path with
  | .error fault => return .error (.file fault)
  | .ok source =>
    match Module.read? source with
    | some module => return .ok module
    | none => return .error (.notModule path)

/-- The modules in some files; the first file with a fault decides. -/
def loadModules : List String → m (Except CommandError (List Module))
  | [] => return .ok []
  | path :: paths => do
    match ← loadModule files path with
    | .error error => return .error error
    | .ok module => return (← loadModules paths).map (module :: ·)

/-- The program in some files. -/
def loadProgram (paths : List String) : m (Except CommandError Program) := do
  match ← loadModules files paths with
  | .error error => return .error error
  | .ok modules => return (check modules).mapError .refused

/-- The storage to start from: what the state file holds, if there is one. -/
def loadState (state : Option String) : m (Except CommandError Store) := do
  match state with
  | none => return .ok ∅
  | some path =>
    if ← files.isPresent path then
      match ← files.read path with
      | .error fault => return .error (.file fault)
      | .ok source =>
        match Store.readSnapshot? source with
        | none => return .error .malformedState
        | some resources => return (Store.ofSnapshot resources).mapError .failure
    else return .ok ∅

/-- What a run request means for a program: function, type arguments and arguments. -/
def RunRequest.resolve (request : RunRequest) (settings : Settings) (program : Program) :
    Except CommandError (FunctionId × List Ty × List Value) := do
  let function ← (QualifiedName.parseFunction request.function).mapError .spelling
  let typeArgs ← (request.typeArgs.mapM Ty.parse).mapError .spelling
  let sender := request.sender.getD settings.sender
  return (function, typeArgs,
    ← program.types.spelledArguments function typeArgs request.args sender)

/-- Run one function, print the report, then write the state. -/
def runFunction (settings : Settings) (program : Program) (request : RunRequest) : m Outcome := do
  match request.resolve settings program with
  | .error error => return .failed error
  | .ok (function, typeArgs, args) =>
    match ← loadState files request.state with
    | .error error => return .failed error
    | .ok store =>
      match (settings.setup program).execute store function typeArgs args with
      | .error stop => return .failed (.ofStop stop)
      | .ok receipt =>
        unless receipt.isWritable do return .failed .unwritable
        let printed := (receipt.toJson function).pretty ++ "\n"
        match request.state with
        | none => return { printed }
        | some path =>
          match ← files.write path receipt.store.toJson.pretty with
          | .ok () => return { printed }
          | .error fault => return { printed, error := some (.file fault) }

/-- The line that reports an accepted program. -/
def Program.summary (program : Program) : String :=
  "ok: " ++ toString program.modules.length ++ " module(s), " ++
    toString program.types.functions.size ++ " function(s)\n"

/-- Carry out an invocation. -/
def Invocation.perform (invocation : Invocation) : m Outcome := do
  match ← Settings.load files invocation.config (invocation.paths.headD ".") with
  | .error fault => return .failed (.settings fault)
  | .ok (_, settings) =>
    match ← loadProgram files invocation.paths with
    | .error error => return .failed error
    | .ok program =>
      match invocation.command with
      | .check _ => return { printed := program.summary }
      | .run request => runFunction files settings program request
      | .test => return settings.runTests program

end

/-! ## Exit codes -/

def versionText : String := "slate 0.1.0\n"

def helpText : String :=
  "Usage: slate [--config FILE] <check|run|test> FILES...\n" ++
  "  check [--sequential]  check the modules\n" ++
  "  run --function NAME [--type-arg TYPE] [--arg VALUE] [--state FILE] [--sender ADDRESS]\n" ++
  "  test                  run the functions marked as tests\n"

/-- How a command line ends. -/
inductive Ending where
  /-- The words make no request. -/
  | usage
  | finished (outcome : Outcome)

def Ending.exitCode : Ending → Nat
  | .usage => 2
  | .finished outcome => if outcome.error.isSome then 1 else 0

/-- Carry out a command line. -/
def carryOut {m : Type → Type} [Monad m] (files : Files m) (words : List String) : m Ending := do
  match Request.parse? words with
  | none => return .usage
  | some .version => return .finished { printed := versionText }
  | some .help => return .finished { printed := helpText }
  | some (.perform invocation) => return .finished (← invocation.perform files)

end Custody
