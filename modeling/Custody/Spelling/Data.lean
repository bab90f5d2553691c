import Custody.Decimal.Shortest
import Custody.Document.Decoder
import Custody.Table
/-!
# Plain data

A JSON text taken as data: a number becomes a machine number, the keys of an object are sorted, and
of two equal keys the later stays. A number that is too large, an unfinished surrogate pair, or too
deep a nesting make the text no data at all.
-/

namespace Custody

/-! ## Numbers -/

/-- A number as it is held: a word if it is written as one, and a binary fraction otherwise. -/
inductive Number where
  | natural (value : Nat)
  /-- A negative whole number, by its size. -/
  | negative (size : Nat)
  | fraction (below : Bool) (size : Binary64)
deriving DecidableEq

namespace Number

/-- Numbers of this size and above do not fit a word. -/
def wordLimit : Nat := Nat.pow 2 64

/-- Whole digits, as far as they fit a word; the first that does not fit and all after it are only
counted. -/
def collectWhole : Nat → List Nat → Nat × Nat
  | value, [] => (value, 0)
  | value, digit :: digits =>
    if value * 10 + digit < wordLimit then collectWhole (value * 10 + digit) digits
    else (value, digits.length + 1)

/-- Digits behind the point, as far as they fit a word; the first that does not fit and all after it
are dropped. Answers the value with the number of digits taken. -/
def collectFraction : Nat → Nat → List Nat → Nat × Nat
  | value, taken, [] => (value, taken)
  | value, taken, digit :: digits =>
    if value * 10 + digit < wordLimit then collectFraction (value * 10 + digit) (taken + 1) digits
    else (value, taken)

/-- Exponents beyond this are not counted any further. -/
def exponentLimit : Nat := Nat.pow 2 31

/-- The largest power of ten that is applied in one step. -/
def maxPower : Nat := 308

def powerOfTen (power : Nat) : Option Binary64 := Binary64.ofNat (Nat.pow 10 power)

/-- `value / 10 ^ power`, where a large power is taken out in steps. -/
def divide : Nat → Binary64 → Nat → Option Binary64
  | 0, _, _ => some .zero
  | steps + 1, value, power =>
    if power ≤ maxPower then do value.div (← powerOfTen power)
    else if value.isZero then some value
    else do
      let smaller ← value.div (← powerOfTen maxPower)
      divide steps smaller (power - maxPower)

/-- `significand * 10 ^ exponent`, rounded after each step: the significand, the power of ten, and
their product or quotient. After two divisions by the largest power nothing is left of any word, so
four steps suffice. -/
def scale (significand : Nat) (exponent : Int) : Option Binary64 := do
  let value ← Binary64.ofNat significand
  if exponent < 0 then divide 4 value exponent.natAbs
  else if exponent.natAbs ≤ maxPower then value.mul (← powerOfTen exponent.natAbs)
  else if value.isZero then some value
  else none

/-- The magnitude of a number with a point or an exponent, or of a whole number beyond a word. -/
def magnitude (number : JsonNumber) : Option Binary64 :=
  let digits := (Nat.toDigits 10 number.whole).map fun c => c.toNat - '0'.toNat
  let (whole, dropped) := collectWhole 0 digits
  let (significand, taken) := collectFraction whole 0 number.fraction
  let start : Int := (dropped : Int) - taken
  match number.exponent with
  | none => scale significand start
  | some exponent =>
    if exponent.natAbs < exponentLimit then scale significand (start + exponent)
    else if 0 < exponent && significand ≠ 0 then none
    else some .zero

/-- The number a written one stands for. -/
def ofJson? (number : JsonNumber) : Option Number :=
  if number.isInteger && !number.negative && number.whole < wordLimit then
    some (.natural number.whole)
  else if number.isInteger && number.negative && 0 < number.whole && number.whole ≤
    Nat.pow 2 63 then
    some (.negative number.whole)
  else (magnitude number).map (.fraction number.negative)

/-- Fractions are written without an exponent from 0.00001 up to below ten million billions. -/
def layout : Decimal.Layout := { plainFrom := -5, plainBelow := 16 }

def render : Number → String
  | .natural value => toString value
  | .negative size => "-" ++ toString size
  | .fraction below size => layout.render below size

end Number

/-! ## Data -/

inductive Data where
  | null
  | bool (value : Bool)
  | number (value : Number)
  | string (value : String)
  | array (items : List Data)
  /-- The keys are sorted and distinct. -/
  | object (fields : List (String × Data))

namespace Data

mutual

/-- The data of a JSON value around which `room` more brackets may be opened. -/
def ofJson? : Json → (room : Nat) → Option Data
  | .null, _ => some .null
  | .bool value, _ => some (.bool value)
  | .number value, _ => (Number.ofJson? value).map .number
  | .string value, _ => value.map .string
  | .array items, room =>
    match room with
    | 0 => none
    | room + 1 => (itemsOfJson? items room).map .array
  | .object fields, room =>
    match room with
    | 0 => none
    | room + 1 => (fieldsOfJson? fields room).map fun fields => .object
        (Table.ofList fields).entries

def itemsOfJson? : List Json → (room : Nat) → Option (List Data)
  | [], _ => some []
  | item :: items, room => do return (← ofJson? item room) :: (← itemsOfJson? items room)

def fieldsOfJson? : List (Option String × Json) → (room : Nat) → Option (List (String × Data))
  | [], _ => some []
  | (key, value) :: fields, room => do
    return (← key, ← ofJson? value room) :: (← fieldsOfJson? fields room)

end

mutual

/-- The text of data, without blanks. -/
def render : Data → String
  | .null => "null"
  | .bool value => toString value
  | .number value => value.render
  | .string value => String.ofList (Json.quote value)
  | .array items => "[" ++ renderItems items ++ "]"
  | .object fields => "\x7b" ++ renderFields fields ++ "\x7d"

def renderItems : List Data → String
  | [] => ""
  | [item] => render item
  | item :: items => render item ++ "," ++ renderItems items

def renderFields : List (String × Data) → String
  | [] => ""
  | [(key, value)] => String.ofList (Json.quote key) ++ ":" ++ render value
  | (key, value) :: fields =>
    String.ofList (Json.quote key) ++ ":" ++ render value ++ "," ++ renderFields fields

end

/-- Plain digits are a text, so that none of them is lost; other JSON is taken as such, and anything
else is a text. -/
def ofSpelling (source : String) : Data :=
  let digits := source.toList
  if !digits.isEmpty && digits.all fun c => (Json.digitValue? c).isSome then .string source
  else
    match (Json.parse? source).bind (ofJson? · nestingLimit) with
    | some data => data
    | none => .string source

end Data

end Custody
