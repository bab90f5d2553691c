import Custody.Spelling.Error
import Custody.Value
/-!
# Spellings of values

What data spells a value of a given type. Numbers may be written as texts, which is how those beyond
64 bits are given; a struct is an object with exactly its fields.
-/

namespace Custody

namespace Data

/-- Decimal digits, with or without a plus sign, below `2 ^ 128`. -/
def unsigned? (text : String) : Option Nat :=
  let digits :=
    match text.toList with
    | '+' :: rest => rest
    | chars => chars
  if digits.isEmpty then none
  else do
    let values ← digits.mapM Json.digitValue?
    let value := Text.ofDigits 10 values
    if value < Nat.pow 2 128 then some value else none

/-- An unsigned number, as a number or as a text. -/
def asUnsigned : Data → Except SpellingFault Nat
  | .number (.natural value) => .ok value
  | .number value => .error (.notUnsigned value.render)
  | .string text =>
    match unsigned? text with
    | some value => .ok value
    | none => .error (.notUnsigned text)
  | data => .error (.notInteger data)

/-- An unsigned number of a width. -/
def asWord (width : Nat) (ty : Ty) (data : Data) : Except SpellingFault (BitVec width) := do
  let value ← data.asUnsigned
  if value < Nat.pow 2 width then return BitVec.ofNat width value else .error (.tooLarge value ty)

def asBool : Data → Except SpellingFault Bool
  | .bool value => .ok value
  | .string "true" => .ok true
  | .string "false" => .ok false
  | data => .error (.notBool data)

def asAddress : Data → Except SpellingFault Address
  | .string text => (Address.parse text).mapError .badAddress
  | data => .error (.notAddress data)

/-- A value of a type that has no parts; a vector or a struct needs other data than this. -/
def asPlain (data : Data) : Ty → Except SpellingFault Value
  | .bool => do return .bool (← data.asBool)
  | .u8 => do return .u8 (← data.asWord 8 .u8)
  | .u64 => do return .u64 (← data.asWord 64 .u64)
  | .u128 => do return .u128 (← data.asWord 128 .u128)
  | .address => do return .address (← data.asAddress)
  | .vector _ => .error (.notArray data)
  | .struct id args => .error (.notObject ⟨id, args⟩ data)
  | .signer => .error .signer
  | .unit => .error (.unspellable .unit)
  | .param index name => .error (.unspellable (.param index name))
  | .ref mutable inner => .error (.unspellable (.ref mutable inner))

/-- How a part is read, once its type is known. -/
abbrev Reader := Ty → Except SpellingFault Value

/-- The fields of a struct in the order of declaration, from the parts of an object. -/
def assemble (tag : StructTag) (parts : List (String × Reader)) :
    List (String × Ty) → Except SpellingFault (List Value)
  | [] => .ok []
  | (field, ty) :: fields => do
    match parts.lookup field with
    | none => .error (.missingField tag field)
    | some part =>
      let value ← part ty
      return value :: (← assemble tag parts fields)

/-- A struct from the parts of an object. -/
def asStruct (u : Universe) (tag : StructTag) (parts : List (String × Reader)) :
    Except SpellingFault Value :=
  match u.instantiateFields? tag with
  | none => .error (.unknownStruct tag)
  | some fields =>
    match parts.find? fun part => (fields.lookup part.1).isNone with
    | some extra => .error (.noField tag extra.1)
    | none => do return .struct tag (← assemble tag parts fields)

mutual

/-- The value of a type that data spells. -/
def asValue (u : Universe) : Data → Reader
  | .array items => fun ty =>
    match ty with
    | .vector elem => do return .vector (← asValues u items elem)
    | ty => asPlain (.array items) ty
  | .object fields => fun ty =>
    match ty with
    | .struct id args => asStruct u ⟨id, args⟩ (readers u fields)
    | ty => asPlain (.object fields) ty
  | data => data.asPlain

def asValues (u : Universe) : List Data → Ty → Except SpellingFault (List Value)
  | [], _ => .ok []
  | item :: items, ty => do
    let value ← asValue u item ty
    return value :: (← asValues u items ty)

def readers (u : Universe) : List (String × Data) → List (String × Reader)
  | [] => []
  | (field, data) :: rest => (field, asValue u data) :: readers u rest

end

end Data

/-- Read a value of a type. -/
def Value.parse (u : Universe) (ty : Ty) (source : String) : Except SpellingError Value :=
  ((Data.ofSpelling source).asValue u ty).mapError (⟨source, ·⟩)

end Custody
