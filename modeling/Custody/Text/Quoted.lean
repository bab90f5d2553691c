import Custody.Text.Extender
import Custody.Text.Hex
import Custody.Text.Unprintable
/-!
# Quoted characters

How a character or a text is shown between quotes in diagnostics: the usual short escapes, and the
code point in hexadecimal for what cannot be seen by itself.
-/

namespace Custody.Text

/-- The character does not stand for itself between quotes: it has no form of its own, or is drawn
onto the one before it. -/
def isHidden (c : Char) : Bool := isUnprintable c || isExtender c

/-- One character inside quotes; `quote` is the mark that ends the text. -/
def escaped (quote : Char) (c : Char) : String :=
  if c = quote then "\\" ++ String.singleton c
  else if c = '\x5c' then "\\\\"
  else if c = '\x00' then "\\0"
  else if c = '\t' then "\\t"
  else if c = '\r' then "\\r"
  else if c = '\n' then "\\n"
  else if isHidden c then "\\u\x7b" ++ String.ofList (hexDigits c.toNat) ++ "\x7d"
  else String.singleton c

/-- A character between single quotes. -/
def quotedChar (c : Char) : String := "'" ++ escaped '\x27' c ++ "'"

/-- A text between double quotes. -/
def quotedText (text : String) : String :=
  "\"" ++ String.join (text.toList.map (escaped '\x22')) ++ "\""

end Custody.Text
