import Custody.Json.Reader
import Custody.Json.Writer
/-!
# Decoding documents

Readers of JSON values into declarations. A reader is told how many brackets may still be opened
around what it reads; content that nobody asks for is not counted.

A record is an object, or an array of its fields in order. Fields that are not asked for are passed
over, a field given twice is refused. A choice is a plain name, or an object with one key.
-/

namespace Custody

/-- Brackets that may be open at once in a document. -/
def nestingLimit : Nat := 127

/-- Reads a value around which `room` more brackets may be opened. -/
def Decoder (α : Type) := (room : Nat) → Json → Option α

namespace Decoder

variable {α β : Type}

/-- Reads nothing. -/
def refuse : Decoder α := fun _ _ => none

def map (f : α → β) (item : Decoder α) : Decoder β := fun room json => (item room json).map f

/-- Reads a value that has to pass a conversion. -/
def convert (f : α → Option β) (item : Decoder α) : Decoder β := fun room json =>
  (item room json).bind f

def text : Decoder String
  | _, .string value => value
  | _, _ => none

def flag : Decoder Bool
  | _, .bool value => some value
  | _, _ => none

/-- A natural number below a bound, written with digits only. -/
def natBelow (bound : Nat) : Decoder Nat
  | _, .number value =>
    if value.isInteger && !value.negative && value.whole < bound then some value.whole else none
  | _, _ => none

def word (width : Nat) : Decoder (BitVec width) := (natBelow (Nat.pow 2 width)).map
    (BitVec.ofNat width)

def listOf (item : Decoder α) : Decoder (List α)
  | room + 1, .array items => items.mapM (item room)
  | _, _ => none

/-- A value that may be null. -/
def optional (item : Decoder α) : Decoder (Option α)
  | _, .null => some none
  | room, json => (item room json).map some

/-! ## Records -/

/-- The known fields of an object, each at most once. -/
def knownFields (names : List String) :
    List (String × Json) → List (Option String × Json) → Option (List (String × Json))
  | known, [] => some known
  | _, (none, _) :: _ => none
  | known, (some key, value) :: fields =>
    if key ∈ names then
      if (known.lookup key).isSome then none else knownFields names ((key, value) :: known) fields
    else knownFields names known fields

/-- The fields of a record that are given. -/
structure Fields where
  room : Nat
  given : List (String × Json)

namespace Fields

/-- A field that has to be given. -/
def get (fields : Fields) (name : String) (item : Decoder α) : Option α := do
  item fields.room (← fields.given.lookup name)

/-- A field that may be left out. -/
def getD (fields : Fields) (name : String) (item : Decoder α) (otherwise : α) : Option α :=
  match fields.given.lookup name with
  | some json => item fields.room json
  | none => some otherwise

/-- A field that may be left out or null. -/
def get? (fields : Fields) (name : String) (item : Decoder α) : Option (Option α) :=
  fields.getD name (optional item) none

end Fields

/-- A record with the given field names. -/
def record (names : List String) (read : Fields → Option α) : Decoder α
  | room + 1, .object fields => do read ⟨room, ← knownFields names [] fields⟩
  | room + 1, .array items =>
    if items.length ≤ names.length then read ⟨room, names.zip items⟩ else none
  | _, _ => none

/-! ## Choices -/

/-- One of several plain names, or a name with a payload. -/
def choice (plain : List (String × α)) (payload : String → Decoder α) : Decoder α
  | _, .string (some name) => plain.lookup name
  | room + 1, .object [(some name, json)] =>
    match plain.lookup name, json with
    | some value, .null => some value
    | some _, _ => none
    | none, json => payload name room json
  | _, _ => none

/-- One of several plain names. -/
def oneOf (plain : List (String × α)) : Decoder α := choice plain fun _ => refuse

/-- Read a whole document. -/
def readText (item : Decoder α) (source : String) : Option α := do
  item nestingLimit (← Json.parse? source)

end Decoder

end Custody
