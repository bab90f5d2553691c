import Custody.Spelling.Error
import Custody.Text.Blank
/-!
# Spellings of functions and types

A function is spelled `Module::function`. A type is spelled as it is displayed, and blanks may stand
between its parts.
-/

namespace Custody

/-! ## Functions -/

/-- The parts before and after the first `::`. -/
def splitMark (before : List Char) : List Char → Option (List Char × List Char)
  | ':' :: ':' :: rest => some (before.reverse, rest)
  | c :: rest => splitMark (c :: before) rest
  | [] => none

/-- Read a function name with its module. -/
def QualifiedName.parseFunction (source : String) : Except SpellingError FunctionId :=
  let refused := .error ⟨source, .notFunction⟩
  match splitMark [] source.toList with
  | none => refused
  | some (module, name) =>
    if module.isEmpty || name.isEmpty || (splitMark [] name).isSome then refused
    else .ok ⟨String.ofList module, String.ofList name⟩

/-! ## Types -/

namespace Ty

/-- Characters of names: ASCII letters, digits, and the underscore. -/
def isNameChar (c : Char) : Bool :=
  ('a' ≤ c && c ≤ 'z') || ('A' ≤ c && c ≤ 'Z') || ('0' ≤ c && c ≤ '9') || c = '_'

/-- A name behind blanks, and what follows it. -/
def readName (chars : List Char) : Except SpellingFault (String × List Char) :=
  let chars := Text.trimLeft chars
  match chars.takeWhile isNameChar with
  | [] => .error .typeNameExpected
  | name => .ok (String.ofList name, chars.dropWhile isNameChar)

/-- What follows a mark behind blanks, if it stands there. -/
def eat? (mark : List Char) (chars : List Char) : Option (List Char) :=
  let chars := Text.trimLeft chars
  if mark.isPrefixOf chars then some (chars.drop mark.length) else none

/-- The types that a single word names. -/
def ofWord? : String → Option Ty
  | "bool" => some .bool
  | "u8" => some .u8
  | "u64" => some .u64
  | "u128" => some .u128
  | "address" => some .address
  | "signer" => some .signer
  | _ => none

mutual

/-- A type and what follows it. Every step takes at least one character. -/
def readType : Nat → List Char → Except SpellingFault (Ty × List Char)
  | 0, _ => .error .unfinished
  | steps + 1, chars => do
    let (head, rest) ← readName chars
    match ofWord? head with
    | some ty => return (ty, rest)
    | none =>
      if head = "vector" then
        match ← readArgs steps rest with
        | ([elem], rest) => return (.vector elem, rest)
        | _ => .error .vectorArity
      else
        match eat? [':', ':'] rest with
        | none => .error (.unknownType head)
        | some rest =>
          let (name, rest) ← readName rest
          let (args, rest) ← readArgs steps rest
          return (.struct ⟨head, name⟩ args, rest)

/-- The arguments between angle brackets, none if there are no brackets. -/
def readArgs : Nat → List Char → Except SpellingFault (List Ty × List Char)
  | 0, _ => .error .unfinished
  | steps + 1, chars =>
    match eat? ['<'] chars with
    | none => .ok ([], chars)
    | some rest => readList steps rest

/-- Types divided by commas, up to the closing bracket. -/
def readList : Nat → List Char → Except SpellingFault (List Ty × List Char)
  | 0, _ => .error .unfinished
  | steps + 1, chars => do
    let (ty, rest) ← readType steps chars
    match eat? ['>'] rest with
    | some rest => return ([ty], rest)
    | none =>
      match eat? [','] rest with
      | none => .error .separatorExpected
      | some rest =>
        let (types, rest) ← readList steps rest
        return (ty :: types, rest)

end

/-- Read a type. A type of some characters needs no more than two steps for each of them. -/
def parse (source : String) : Except SpellingError Ty :=
  let chars := source.toList
  let result : Except SpellingFault Ty := do
    let (ty, rest) ← readType (2 * chars.length + 2) chars
    match Text.trim rest with
    | [] => return ty
    | rest => .error (.trailing (String.ofList rest))
  result.mapError (⟨source, ·⟩)

end Ty

end Custody
