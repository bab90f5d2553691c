import Custody.Text.Quoted
/-!
# Account addresses

An address is a word of 256 bits. Its literal is `0x` and hexadecimal digits: any number of them up
to 64 is read, and the shortest form is written.
-/

namespace Custody

/-- An account address. -/
structure Address where
  word : BitVec 256
deriving DecidableEq

namespace Address

/-- Hexadecimal digits in the full form. -/
def width : Nat := 64

def ofNat (n : Nat) : Address := ⟨BitVec.ofNat 256 n⟩

def toNat (address : Address) : Nat := address.word.toNat

/-- Addresses are ordered by value, which is the order of their bytes from the most significant. -/
instance : Ord Address := ⟨fun left right => compare left.toNat right.toNat⟩

instance : Std.TransOrd Address := inferInstanceAs (Std.TransCmp (compareOn toNat))

instance : Std.LawfulEqOrd Address where
  eq_of_compare {left right} equal := by
    have same : left.toNat = right.toNat := Std.LawfulEqOrd.eq_of_compare equal
    cases left
    cases right
    exact congrArg mk (BitVec.eq_of_toNat_eq same)

/-- The shortest literal: no leading zeros, and one digit for zero. -/
def render (address : Address) : String := "0x" ++ String.ofList (Text.hexDigits address.toNat)

/-- All 64 digits, without the mark in front. -/
def fullDigits (address : Address) : String :=
  String.ofList (Text.padLeft width (Text.hexDigits address.toNat))

/-- Why a text is no address literal. -/
inductive Flaw where
  | missingMark
  | noDigits
  | tooLong
  | oddCount
  | wrongCount
  | badDigit (digit : Char) (position : Nat)
deriving DecidableEq

def Flaw.describe : Flaw → String
  | .missingMark => "missing `0x` prefix"
  | .noDigits => "no hex digits"
  | .tooLong => "longer than 32 bytes"
  | .oddCount => "Odd number of digits"
  | .wrongCount => "Invalid string length"
  | .badDigit digit position =>
    "Invalid character " ++ Text.quotedChar digit ++ " at position " ++ toString position

/-- A refused literal. -/
structure ParseError where
  literal : String
  flaw : Flaw
deriving DecidableEq

namespace ParseError

def message (error : ParseError) : String :=
  "invalid account address `" ++ error.literal ++ "`: " ++ error.flaw.describe

def code : String := "slate::address"

def help : String := "addresses are hex literals such as `0x1` or `0xcafe`"

end ParseError

/-- Bytes the characters take up when written in UTF-8. -/
def byteCount (chars : List Char) : Nat := chars.foldr (fun c count => c.utf8Size + count) 0

/-- The value of 64 digits, or the first character that is none. -/
def readDigits (position value : Nat) : List Char → Except Flaw Nat
  | [] => .ok value
  | c :: rest =>
    match Text.hexValue? c with
    | some digit => readDigits (position + 1) (value * 16 + digit) rest
    | none => .error (.badDigit c position)

/-- Read the part of a literal behind its mark. The digits are filled up with zeros on the left to
64 characters, and lengths are counted in bytes. -/
def ofDigits (digits : List Char) : Except Flaw Address :=
  if digits.isEmpty then .error .noDigits
  else if width < byteCount digits then .error .tooLong
  else
    let padded := Text.padLeft width digits
    if byteCount padded % 2 = 1 then .error .oddCount
    else if byteCount padded ≠ width then .error .wrongCount
    else (readDigits 0 0 padded).map ofNat

/-- Read a literal. -/
def parse (literal : String) : Except ParseError Address :=
  match literal.toList with
  | '0' :: 'x' :: digits => (ofDigits digits).mapError (⟨literal, ·⟩)
  | _ => .error ⟨literal, .missingMark⟩

def parse? (literal : String) : Option Address := (parse literal).toOption

end Address

end Custody
