import Custody.Toml.Scalar
import Custody.Toml.Tree
/-!
# Reading TOML

Documents of version 1.0. Arrays and inline tables nest at most 79 deep, and a key has at most 79
parts.
-/

namespace Custody.Toml

/-- Levels and parts stay below this number. -/
def depthLimit : Nat := 80

/-! ## Keys -/

def isKeyChar (c : Char) : Bool :=
  ('a' ≤ c && c ≤ 'z') || ('A' ≤ c && c ≤ 'Z') || ('0' ≤ c && c ≤ '9') || c = '_' || c = '-'

variable (input : List Char)

/-- One part of a key: bare, or a text on one line. -/
def readPart : Option (String × List Char) :=
  match input with
  | '\x22' :: rest => readBasic (rest.length + 1) [] rest
  | '\x27' :: rest => readLiteral [] rest
  | input =>
    match input.takeWhile isKeyChar with
    | [] => none
    | name => some (String.ofList name, input.dropWhile isKeyChar)

/-- The parts of a key, with blanks around them; `parts` are those already read, in reverse. -/
def readParts : Nat → List String → List Char → Option (List String × List Char)
  | 0, _, _ => none
  | steps + 1, parts, input =>
    match readPart (skipBlanks input) with
    | none => none
    | some (part, rest) =>
      match skipBlanks rest with
      | '.' :: rest => readParts steps (part :: parts) rest
      | rest => some (part :: parts, rest)

/-- A key as the path to its table and its last part. -/
def readKey : Option (List String × String × List Char) :=
  match readParts depthLimit [] input with
  | some (last :: path, rest) =>
    if path.length + 1 < depthLimit then some (path.reverse, last, rest) else none
  | _ => none

/-! ## Lines -/

def skipComment : List Char → List Char
  | [] => []
  | c :: rest => if isText c then skipComment rest else c :: rest

/-- Blanks and a comment, if there are any. -/
def skipTrailing : List Char :=
  match skipBlanks input with
  | '#' :: rest => skipComment rest
  | rest => rest

/-- The end of a line or of the document. -/
def endLine? : Option (List Char) :=
  match skipTrailing input with
  | [] => some []
  | rest => newline? rest

/-- Blanks, comments and line ends inside an array. -/
def skipGaps : Nat → List Char → List Char
  | 0, input => input
  | steps + 1, input =>
    let rest := skipTrailing input
    match newline? rest with
    | some rest => skipGaps steps rest
    | none => rest

/-! ## Values -/

/-- A number or a date. -/
def readNumeric : Option (Toml × List Char) :=
  match readDate input with
  | some rest => some (.date, rest)
  | none =>
    match readFraction input with
    | some rest => some (.fraction, rest)
    | none => (readInteger input).map fun (value, rest) => (.integer value, rest)

mutual

/-- A value inside which `room` more levels may be opened. -/
def readValue : Nat → Nat → List Char → Option (Toml × List Char)
  | 0, _, _ => none
  | steps + 1, room, input =>
    match input with
    | '[' :: rest => if room = 0 then none else readItems steps (room - 1) [] rest
    | '\x7b' :: rest =>
      if room = 0 then none
      else
        match skipBlanks rest with
        | '\x7d' :: rest => some (.table [], rest)
        | rest => readPairs steps (room - 1) [] rest
    | 't' :: 'r' :: 'u' :: 'e' :: rest => some (.bool true, rest)
    | 'f' :: 'a' :: 'l' :: 's' :: 'e' :: rest => some (.bool false, rest)
    | c :: _ =>
      if c = '\x22' || c = '\x27' then
        (readString input).map fun (value, rest) => (.string value, rest)
      else readNumeric input
    | [] => none

/-- The items of an array up to its end; `items` are those already read, in reverse. -/
def readItems : Nat → Nat → List Toml → List Char → Option (Toml × List Char)
  | 0, _, _, _ => none
  | steps + 1, room, items, input =>
    match skipGaps (input.length + 1) input with
    | ']' :: rest => some (.array items.reverse, rest)
    | rest =>
      match readValue steps room rest with
      | none => none
      | some (item, rest) =>
        match skipGaps (rest.length + 1) rest with
        | ',' :: rest => readItems steps room (item :: items) rest
        | ']' :: rest => some (.array (item :: items).reverse, rest)
        | _ => none

/-- The pairs of an inline table up to its end; `pairs` are those already read, in reverse. -/
def readPairs : Nat → Nat → List (List String × String × Toml) → List Char →
    Option (Toml × List Char)
  | 0, _, _, _ => none
  | steps + 1, room, pairs, input =>
    match readKey input with
    | some (path, key, '=' :: rest) =>
      match readValue steps room (skipBlanks rest) with
      | none => none
      | some (value, rest) =>
        let pairs := (path, key, value) :: pairs
        match skipBlanks rest with
        | ',' :: rest => readPairs steps room pairs rest
        | '\x7d' :: rest =>
          match addAll? pairs.reverse [] with
          | some entries => some (.table (Node.entriesToToml entries), rest)
          | none => none
        | _ => none
    | _ => none

end

/-! ## Documents -/

/-- One line of a document, or the lines that one value takes. -/
inductive Line where
  | blank
  | pair (path : List String) (key : String) (value : Toml)
  | header (repeated : Bool) (path : List String) (key : String)

/-- A header behind its opening brackets. -/
def readHeader (repeated : Bool) (input : List Char) : Option (Line × List Char) := do
  let (path, key, rest) ← readKey input
  let rest ← readMark ']' rest
  let rest ← if repeated then readMark ']' rest else some rest
  return (.header repeated path key, ← endLine? rest)

def readPair : Option (Line × List Char) := do
  let (path, key, rest) ← readKey input
  let rest ← readMark '=' rest
  let (value, rest) ← readValue (rest.length + 1) (depthLimit - 1) (skipBlanks rest)
  return (.pair path key value, ← endLine? rest)

def readLine : Option (Line × List Char) :=
  match skipBlanks input with
  | '[' :: '[' :: rest => readHeader true rest
  | '[' :: rest => readHeader false rest
  | rest =>
    match endLine? rest with
    | some rest => some (.blank, rest)
    | none => readPair rest

/-- All lines of a document; `lines` are those already read, in reverse. -/
def readLines : Nat → List Line → List Char → Option (List Line)
  | _, lines, [] => some lines.reverse
  | 0, _, _ :: _ => none
  | steps + 1, lines, input =>
    match readLine input with
    | some (line, rest) => readLines steps (line :: lines) rest
    | none => none

/-- The pairs before any header and the sections, from the last line up. -/
def group : List Line → List (List String × String × Toml) × List Section
  | [] => ([], [])
  | .blank :: lines => group lines
  | .pair path key value :: lines =>
    let (pairs, sections) := group lines
    ((path, key, value) :: pairs, sections)
  | .header repeated path key :: lines =>
    let (pairs, sections) := group lines
    ([], { repeated, path, key, pairs } :: sections)

/-- The characters of a document behind a byte order mark, if there is one. -/
def dropMark : List Char → List Char
  | c :: rest => if c.toNat = 0xfeff then rest else c :: rest
  | [] => []

/-- Read a document. -/
def parse? (source : String) : Option (List (String × Toml)) := do
  let chars := dropMark source.toList
  let (pairs, sections) := group (← readLines (chars.length + 1) [] chars)
  assemble? pairs sections

end Custody.Toml
