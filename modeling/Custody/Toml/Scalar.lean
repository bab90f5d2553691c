import Custody.Decimal.Binary64
import Custody.Json.Reader
/-!
# TOML scalars

Texts, numbers and dates. Every reader takes the characters in front and answers with what is left.
-/

namespace Custody.Toml

/-! ## Characters -/

def isBlank (c : Char) : Bool := c = ' ' || c = '\t'

def skipBlanks : List Char → List Char
  | [] => []
  | c :: rest => if isBlank c then skipBlanks rest else c :: rest

/-- Characters that may stand in texts and comments: all but controls, and the tab. -/
def isText (c : Char) : Bool := c = '\t' || (0x20 ≤ c.toNat && c.toNat ≠ 0x7f)

/-- What follows the end of a line, if one stands here. -/
def newline? : List Char → Option (List Char)
  | '\n' :: rest => some rest
  | '\r' :: '\n' :: rest => some rest
  | _ => none

/-- Blanks and ends of lines. -/
def skipSpace : List Char → List Char
  | '\r' :: '\n' :: rest => skipSpace rest
  | c :: rest => if isBlank c || c = '\n' then skipSpace rest else c :: rest
  | [] => []

/-! ## Texts -/

/-- The character of a code point. -/
def scalar? (n : Nat) : Option Char :=
  if n < 0xd800 || (0xe000 ≤ n && n < 0x110000) then some (Char.ofNat n) else none

def hexNumber? (digits : List Char) : Option Nat := do
  return Text.ofDigits 16 (← digits.mapM Text.hexValue?)

/-- The character an escape stands for, and what follows. -/
def escape? : List Char → Option (Char × List Char)
  | 'b' :: rest => some ('\x08', rest)
  | 't' :: rest => some ('\t', rest)
  | 'n' :: rest => some ('\n', rest)
  | 'f' :: rest => some ('\x0c', rest)
  | 'r' :: rest => some ('\r', rest)
  | '\x22' :: rest => some ('\x22', rest)
  | '\x5c' :: rest => some ('\x5c', rest)
  | 'u' :: rest => do
    if rest.length < 4 then none
    else return (← scalar? (← hexNumber? (rest.take 4)), rest.drop 4)
  | 'U' :: rest => do
    if rest.length < 8 then none
    else return (← scalar? (← hexNumber? (rest.take 8)), rest.drop 8)
  | _ => none

/-- The rest of a text in double quotes on one line. -/
def readBasic : Nat → List Char → List Char → Option (String × List Char)
  | 0, _, _ => none
  | steps + 1, chars, input =>
    match input with
    | '\x22' :: rest => some (String.ofList chars.reverse, rest)
    | '\x5c' :: rest =>
      match escape? rest with
      | some (c, rest) => readBasic steps (c :: chars) rest
      | none => none
    | c :: rest => if isText c then readBasic steps (c :: chars) rest else none
    | [] => none

/-- The rest of a text in single quotes on one line. -/
def readLiteral (chars : List Char) : List Char → Option (String × List Char)
  | '\x27' :: rest => some (String.ofList chars.reverse, rest)
  | c :: rest => if isText c then readLiteral (c :: chars) rest else none
  | [] => none

/-- The marks of one kind in front, and what follows them. -/
def spanMarks (mark : Char) : List Char → Nat × List Char
  | c :: rest => if c = mark then let (count, rest) := spanMarks mark rest; (count + 1, rest)
    else (0, c :: rest)
  | [] => (0, [])

/-- The rest of a text over several lines. Up to two marks more than the three that end it belong to
the text; `escapes` says whether a backslash is special. -/
def readLong (mark : Char) (escapes : Bool) :
    Nat → List Char → List Char → Option (String × List Char)
  | 0, _, _ => none
  | steps + 1, chars, input =>
    match input with
    | [] => none
    | c :: rest =>
      if c = mark then
        let (count, rest) := spanMarks mark input
        let text := List.replicate (if count < 3 then count else count - 3) mark ++ chars
        if count < 3 then readLong mark escapes steps text rest
        else if count ≤ 5 then some (String.ofList text.reverse, rest)
        else none
      else if escapes && c = '\x5c' then
        match newline? (skipBlanks rest) with
        | some rest => readLong mark escapes steps chars (skipSpace rest)
        | none =>
          match escape? rest with
          | some (c, rest) => readLong mark escapes steps (c :: chars) rest
          | none => none
      else
        match newline? input with
        | some rest => readLong mark escapes steps ('\n' :: chars) rest
        | none => if isText c then readLong mark escapes steps (c :: chars) rest else none

variable (input : List Char)

/-- A line end right behind the opening marks is no part of the text. -/
def dropNewline : List Char := (newline? input).getD input

/-- A text of any of the four kinds. -/
def readString : Option (String × List Char) :=
  match input with
  | '\x22' :: '\x22' :: '\x22' :: rest =>
    readLong '\x22' true (rest.length + 1) [] (dropNewline rest)
  | '\x22' :: rest => readBasic (rest.length + 1) [] rest
  | '\x27' :: '\x27' :: '\x27' :: rest =>
    readLong '\x27' false (rest.length + 1) [] (dropNewline rest)
  | '\x27' :: rest => readLiteral [] rest
  | _ => none

/-! ## Numbers -/

/-- Digits of a base with single underscores between them; `digits` are those already read, in
reverse. -/
def moreDigits (digit? : Char → Option Nat) (digits : List Nat) : List Char → List Nat × List Char
  | '_' :: c :: rest =>
    match digit? c with
    | some digit => moreDigits digit? (digit :: digits) rest
    | none => (digits.reverse, '_' :: c :: rest)
  | c :: rest =>
    match digit? c with
    | some digit => moreDigits digit? (digit :: digits) rest
    | none => (digits.reverse, c :: rest)
  | [] => (digits.reverse, [])

/-- One digit or more. -/
def readDigits (digit? : Char → Option Nat) : List Char → Option (List Nat × List Char)
  | c :: rest => do
    let digit ← digit? c
    return moreDigits digit? [digit] rest
  | [] => none

/-- The digits before a point: a zero stands alone. -/
def readWhole : List Char → Option (List Nat × List Char)
  | '0' :: rest => some ([0], rest)
  | input => readDigits Json.digitValue? input

def digitBelow? (base : Nat) (c : Char) : Option Nat := do
  let digit ← Text.hexValue? c
  if digit < base then some digit else none

/-- Integers are signed words of 64 bits. -/
def inRange (value : Int) : Bool := -(Nat.pow 2 63 : Int) ≤ value && value < (Nat.pow 2 63 : Int)

/-- An integer in base 16, 8 or 2, behind its mark. -/
def readBased (base : Nat) (input : List Char) : Option (Int × List Char) := do
  let (digits, rest) ← readDigits (digitBelow? base) input
  let value : Int := Text.ofDigits base digits
  if inRange value then some (value, rest) else none

def readInteger : List Char → Option (Int × List Char)
  | '0' :: 'x' :: rest => readBased 16 rest
  | '0' :: 'o' :: rest => readBased 8 rest
  | '0' :: 'b' :: rest => readBased 2 rest
  | input => do
    let (negative, rest) := Json.readSign input
    let (digits, rest) ← readWhole rest
    let size : Int := Text.ofDigits 10 digits
    let value := if negative then -size else size
    if inRange value then some (value, rest) else none

/-- `significand * 10 ^ exponent` is beyond every number of 64 bits. Those have at most 309 digits,
so only numbers of about that many digits are computed. -/
def isHuge (significand : Nat) (exponent : Int) : Bool :=
  let digits : Int := (Nat.toDigits 10 significand).length + exponent
  if significand = 0 || digits < 300 then false
  else if 320 < digits then true
  else (Binary64.ofRatio (significand * Nat.pow 10 exponent.toNat)
    (Nat.pow 10 (-exponent).toNat)).isNone

/-- The digits behind a point. -/
def readPoint : List Char → Option (List Nat × List Char)
  | '.' :: rest => readDigits Json.digitValue? rest
  | _ => none

/-- A written exponent. -/
def readPower : List Char → Option (Int × List Char)
  | c :: rest =>
    if c = 'e' || c = 'E' then do
      let (negative, rest) := Json.readSign rest
      let (digits, rest) ← readDigits Json.digitValue? rest
      let size : Int := Text.ofDigits 10 digits
      return (if negative then -size else size, rest)
    else none
  | [] => none

/-- A number with a point or an exponent; one that is too large is refused. -/
def readFraction : Option (List Char) := do
  let (negative, rest) := Json.readSign input
  match rest with
  | 'i' :: 'n' :: 'f' :: rest => some rest
  | 'n' :: 'a' :: 'n' :: rest => some rest
  | rest =>
    let (whole, rest) ← readWhole rest
    let (fraction, rest, pointed) :=
      match readPoint rest with
      | some (digits, rest) => (digits, rest, true)
      | none => ([], rest, false)
    let (power, rest, powered) :=
      match readPower rest with
      | some (power, rest) => (power, rest, true)
      | none => (0, rest, false)
    if !pointed && !powered then none
    else if !negative && isHuge (Text.ofDigits 10 (whole ++ fraction))
      (power - fraction.length) then
      none
    else some rest

/-! ## Dates -/

/-- A number of exactly so many digits within bounds. -/
def readField (width low high : Nat) (input : List Char) : Option (Nat × List Char) := do
  if input.length < width then none
  else
    let digits ← (input.take width).mapM Json.digitValue?
    let value := Text.ofDigits 10 digits
    if low ≤ value && value ≤ high then some (value, input.drop width) else none

def readMark (mark : Char) : List Char → Option (List Char)
  | c :: rest => if c = mark then some rest else none
  | [] => none

def isLeapYear (year : Nat) : Bool := year % 4 = 0 && (year % 100 ≠ 0 || year % 400 = 0)

def daysIn (year month : Nat) : Nat :=
  if month = 2 then (if isLeapYear year then 29 else 28)
  else if month = 4 || month = 6 || month = 9 || month = 11 then 30
  else 31

def readDay : Option (List Char) := do
  let (year, rest) ← readField 4 0 9999 input
  let (month, rest) ← readField 2 1 12 (← readMark '-' rest)
  let (_, rest) ← readField 2 1 (daysIn year month) (← readMark '-' rest)
  return rest

/-- Parts of a second, if they are written. -/
def skipPoint : List Char :=
  match input with
  | '.' :: rest =>
    match Json.spanDigits [] rest with
    | ([], _) => input
    | (_, rest) => rest
  | _ => input

def readTime : Option (List Char) := do
  let (_, rest) ← readField 2 0 23 input
  let (_, rest) ← readField 2 0 59 (← readMark ':' rest)
  let (_, rest) ← readField 2 0 60 (← readMark ':' rest)
  return skipPoint rest

/-- A difference from universal time. -/
def readOffset : List Char → Option (List Char)
  | c :: rest =>
    if c = 'Z' || c = 'z' then some rest
    else if c = '+' || c = '-' then do
      let (_, rest) ← readField 2 0 23 rest
      let (_, rest) ← readField 2 0 59 (← readMark ':' rest)
      return rest
    else none
  | [] => none

/-- A date, a time, or both, the latter perhaps with an offset. -/
def readDate : Option (List Char) :=
  match readDay input with
  | none => readTime input
  | some rest =>
    match rest with
    | c :: later =>
      if c = 'T' || c = 't' || c = ' ' then
        match readTime later with
        | some later => some ((readOffset later).getD later)
        | none => some rest
      else some rest
    | [] => some []

end Custody.Toml
