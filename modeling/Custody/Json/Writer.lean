import Custody.Json.Basic
import Custody.Text.Hex
/-!
# Writing JSON

Two forms: one line without blanks, and one element per line with two blanks per level. Characters
outside ASCII stand for themselves.
-/

namespace Custody.Json

/-- The short escape of a character, if it has one. -/
def shortName? (c : Char) : Option Char :=
  if c = '\x22' || c = '\x5c' then some c
  else if c = '\x08' then some 'b'
  else if c = '\x0c' then some 'f'
  else if c = '\n' then some 'n'
  else if c = '\r' then some 'r'
  else if c = '\t' then some 't'
  else none

/-- A character inside a text: controls and the two marks are escaped. -/
def escape (c : Char) : List Char :=
  match shortName? c with
  | some name => ['\x5c', name]
  | none =>
    if c.toNat < 0x20 then '\x5c' :: 'u' :: Text.padLeft 4 (Text.hexDigits c.toNat) else [c]

def quote (value : String) : List Char := '\x22' :: value.toList.flatMap escape ++ ['\x22']

/-- A text; one without a value has no form of its own and is written as null. -/
def quoteText : Option String → List Char
  | some value => quote value
  | none => "null".toList

def digitChars (n : Nat) : List Char := Nat.toDigits 10 n

def writeNumber (number : JsonNumber) : List Char :=
  (if number.negative then ['-'] else []) ++ digitChars number.whole ++
    (match number.fraction with
      | [] => []
      | digits => '.' :: digits.map Nat.digitChar) ++
    match number.exponent with
    | none => []
    | some exponent =>
      'e' :: (if exponent < 0 then ['-'] else []) ++ digitChars exponent.natAbs

mutual

/-- The form without blanks. -/
def writeCompact : Json → List Char
  | .null => "null".toList
  | .bool true => "true".toList
  | .bool false => "false".toList
  | .number value => writeNumber value
  | .string value => quoteText value
  | .array items => '[' :: writeCompactItems items ++ [']']
  | .object fields => '\x7b' :: writeCompactFields fields ++ ['\x7d']

def writeCompactItems : List Json → List Char
  | [] => []
  | [item] => writeCompact item
  | item :: items => writeCompact item ++ ',' :: writeCompactItems items

def writeCompactFields : List (Option String × Json) → List Char
  | [] => []
  | [(key, value)] => quoteText key ++ ':' :: writeCompact value
  | (key, value) :: fields =>
    quoteText key ++ ':' :: (writeCompact value ++ ',' :: writeCompactFields fields)

end

/-- A new line at a level. -/
def newline (level : Nat) : List Char := '\n' :: List.replicate (2 * level) ' '

mutual

/-- The form with one element per line, for a value at a level. -/
def writePretty (level : Nat) : Json → List Char
  | .array [] => ['[', ']']
  | .array items => '[' :: writePrettyItems (level + 1) items ++ newline level ++ [']']
  | .object [] => ['\x7b', '\x7d']
  | .object fields => '\x7b' :: writePrettyFields (level + 1) fields ++ newline level ++ ['\x7d']
  | .null => "null".toList
  | .bool true => "true".toList
  | .bool false => "false".toList
  | .number value => writeNumber value
  | .string value => quoteText value

def writePrettyItems (level : Nat) : List Json → List Char
  | [] => []
  | [item] => newline level ++ writePretty level item
  | item :: items =>
    newline level ++ writePretty level item ++ ',' :: writePrettyItems level items

def writePrettyFields (level : Nat) : List (Option String × Json) → List Char
  | [] => []
  | [(key, value)] => newline level ++ quoteText key ++ ':' :: ' ' :: writePretty level value
  | (key, value) :: fields =>
    newline level ++ quoteText key ++ ':' :: ' ' :: writePretty level value ++
      ',' :: writePrettyFields level fields

end

def compact (json : Json) : String := String.ofList (writeCompact json)

def pretty (json : Json) : String := String.ofList (writePretty 0 json)

end Custody.Json
