/-!
# JSON values

A JSON document as it is written: a number keeps its digits, an object its keys in order and with
repetitions, and a text that spells half of a surrogate pair has no value.
-/

namespace Custody

/-- A number as written. -/
structure JsonNumber where
  negative : Bool := false
  whole : Nat
  /-- The digits behind the point, at least one of them if there is a point. -/
  fraction : List Nat := []
  /-- The written exponent. -/
  exponent : Option Int := none
deriving DecidableEq

/-- Neither a point nor an exponent is written. -/
def JsonNumber.isInteger (number : JsonNumber) : Bool :=
  number.fraction.isEmpty && number.exponent.isNone

inductive Json where
  | null
  | bool (value : Bool)
  | number (value : JsonNumber)
  /-- No value stands for a text with half of a surrogate pair. -/
  | string (value : Option String)
  | array (items : List Json)
  | object (fields : List (Option String × Json))

namespace Json

def text (value : String) : Json := .string (some value)

def nat (value : Nat) : Json := .number { whole := value }

/-- An object with the given keys. -/
def record (fields : List (String × Json)) : Json :=
  .object (fields.map fun field => (some field.1, field.2))

/-- An object with one key. -/
def tagged (name : String) (payload : Json) : Json := record [(name, payload)]

/-- An optional part, null if absent. -/
def optional {α : Type} (value : Option α) (encode : α → Json) : Json :=
  match value with
  | some value => encode value
  | none => .null

end Json

end Custody
