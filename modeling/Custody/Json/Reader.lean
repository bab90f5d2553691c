import Custody.Json.Basic
import Custody.Text.Hex
/-!
# Reading JSON

The strict grammar: no comments, no trailing commas, no leading zeros, no raw control characters,
and nothing but blanks behind the value. Reading is total: every value takes at least one character,
so as many steps as there are characters suffice.
-/

namespace Custody.Json

def isBlank (c : Char) : Bool := c = ' ' || c = '\n' || c = '\t' || c = '\r'

def skipBlanks : List Char → List Char
  | [] => []
  | c :: rest => if isBlank c then skipBlanks rest else c :: rest

/-! ## Texts -/

def isHighHalf (n : Nat) : Bool := 0xd800 ≤ n && n < 0xdc00

def isLowHalf (n : Nat) : Bool := 0xdc00 ≤ n && n < 0xe000

/-- The characters of a list of code points in which a character beyond the first plane may stand as
its two halves; `chars` are those already read, in reverse. -/
def joinHalves (chars : List Char) : List Nat → Option (List Char)
  | [] => some chars.reverse
  | [n] => if isHighHalf n || isLowHalf n then none else some (Char.ofNat n :: chars).reverse
  | n :: low :: rest =>
    if isHighHalf n && isLowHalf low then
      joinHalves (Char.ofNat (0x10000 + (n - 0xd800) * 0x400 + (low - 0xdc00)) :: chars) rest
    else if isHighHalf n || isLowHalf n then none
    else joinHalves (Char.ofNat n :: chars) (low :: rest)

/-- What a short escape stands for. -/
def shortEscape? (c : Char) : Option Char :=
  match c with
  | '\x22' => some '\x22'
  | '\x5c' => some '\x5c'
  | '/' => some '/'
  | 'b' => some '\x08'
  | 'f' => some '\x0c'
  | 'n' => some '\n'
  | 'r' => some '\r'
  | 't' => some '\t'
  | _ => none

/-- The code point of four hexadecimal digits. -/
def hexQuad? (a b c d : Char) : Option Nat := do
  let a ← Text.hexValue? a
  let b ← Text.hexValue? b
  let c ← Text.hexValue? c
  let d ← Text.hexValue? d
  return ((a * 16 + b) * 16 + c) * 16 + d

/-- The code points up to the closing quote, and what follows it; `points` are those already read,
in reverse. -/
def readPoints (points : List Nat) : List Char → Option (List Nat × List Char)
  | [] => none
  | '\x22' :: rest => some (points.reverse, rest)
  | '\x5c' :: 'u' :: a :: b :: c :: d :: rest =>
    match hexQuad? a b c d with
    | some n => readPoints (n :: points) rest
    | none => none
  | '\x5c' :: c :: rest =>
    match shortEscape? c with
    | some char => readPoints (char.toNat :: points) rest
    | none => none
  | c :: rest => if c.toNat < 0x20 then none else readPoints (c.toNat :: points) rest

/-- A text behind its opening quote. -/
def readText (chars : List Char) : Option (Option String × List Char) := do
  let (points, rest) ← readPoints [] chars
  return ((joinHalves [] points).map String.ofList, rest)

/-! ## Numbers -/

def digitValue? (c : Char) : Option Nat :=
  if '0' ≤ c ∧ c ≤ '9' then some (c.toNat - '0'.toNat) else none

/-- The digits in front, and what follows them. -/
def spanDigits (digits : List Nat) : List Char → List Nat × List Char
  | [] => (digits.reverse, [])
  | c :: rest =>
    match digitValue? c with
    | some digit => spanDigits (digit :: digits) rest
    | none => (digits.reverse, c :: rest)

/-- The digits before the point: a leading zero stands alone. -/
def readWhole (chars : List Char) : Option (Nat × List Char) :=
  match spanDigits [] chars with
  | ([], _) => none
  | ([0], rest) => some (0, rest)
  | (0 :: _ :: _, _) => none
  | (digits, rest) => some (Text.ofDigits 10 digits, rest)

/-- The digits behind a point, if there is one. -/
def readFraction : List Char → Option (List Nat × List Char)
  | '.' :: rest =>
    match spanDigits [] rest with
    | ([], _) => none
    | found => some found
  | chars => some ([], chars)

def readSign : List Char → Bool × List Char
  | '-' :: rest => (true, rest)
  | '+' :: rest => (false, rest)
  | chars => (false, chars)

/-- The exponent, if one is written. -/
def readExponent : List Char → Option (Option Int × List Char)
  | c :: rest =>
    if c = 'e' || c = 'E' then
      let (negative, rest) := readSign rest
      match spanDigits [] rest with
      | ([], _) => none
      | (digits, rest) =>
        let size : Int := Text.ofDigits 10 digits
        some (some (if negative then -size else size), rest)
    else some (none, c :: rest)
  | [] => some (none, [])

/-- A number without its sign. -/
def readMagnitude (negative : Bool) (chars : List Char) : Option (JsonNumber × List Char) := do
  let (whole, rest) ← readWhole chars
  let (fraction, rest) ← readFraction rest
  let (exponent, rest) ← readExponent rest
  return ({ negative, whole, fraction, exponent }, rest)

def readNumber : List Char → Option (JsonNumber × List Char)
  | '-' :: rest => readMagnitude true rest
  | chars => readMagnitude false chars

/-! ## Values -/

mutual

/-- A value and what follows it. -/
def readValue : Nat → List Char → Option (Json × List Char)
  | 0, _ => none
  | steps + 1, chars =>
    match skipBlanks chars with
    | 'n' :: 'u' :: 'l' :: 'l' :: rest => some (.null, rest)
    | 't' :: 'r' :: 'u' :: 'e' :: rest => some (.bool true, rest)
    | 'f' :: 'a' :: 'l' :: 's' :: 'e' :: rest => some (.bool false, rest)
    | '\x22' :: rest => (readText rest).map fun (value, rest) => (.string value, rest)
    | '[' :: rest =>
      match skipBlanks rest with
      | ']' :: rest => some (.array [], rest)
      | rest => readItems steps [] rest
    | '\x7b' :: rest =>
      match skipBlanks rest with
      | '\x7d' :: rest => some (.object [], rest)
      | rest => readFields steps [] rest
    | rest => (readNumber rest).map fun (value, rest) => (.number value, rest)

/-- The items of an array up to its end; `items` are those already read, in reverse. -/
def readItems : Nat → List Json → List Char → Option (Json × List Char)
  | 0, _, _ => none
  | steps + 1, items, chars =>
    match readValue steps chars with
    | none => none
    | some (item, rest) =>
      match skipBlanks rest with
      | ',' :: rest => readItems steps (item :: items) rest
      | ']' :: rest => some (.array (item :: items).reverse, rest)
      | _ => none

/-- The fields of an object up to its end; `fields` are those already read, in reverse. -/
def readFields : Nat → List (Option String × Json) → List Char → Option (Json × List Char)
  | 0, _, _ => none
  | steps + 1, fields, chars =>
    match skipBlanks chars with
    | '\x22' :: rest =>
      match readText rest with
      | none => none
      | some (key, rest) =>
        match skipBlanks rest with
        | ':' :: rest =>
          match readValue steps rest with
          | none => none
          | some (value, rest) =>
            match skipBlanks rest with
            | ',' :: rest => readFields steps ((key, value) :: fields) rest
            | '\x7d' :: rest => some (.object ((key, value) :: fields).reverse, rest)
            | _ => none
        | _ => none
    | _ => none

end

/-- Read a whole document. -/
def parse? (source : String) : Option Json :=
  let chars := source.toList
  match readValue (chars.length + 1) chars with
  | some (value, rest) => if (skipBlanks rest).isEmpty then some value else none
  | none => none

end Custody.Json
