import Custody.Text.Runs
/-!
# Blanks

The characters with the Unicode property of white space.
-/

namespace Custody.Text

/-- Runs of code points of white space. -/
def blankRuns : Runs :=
  [9, 5, 18, 1, 100, 1, 26, 1, 5599, 1, 2431, 11, 29, 2, 5, 1, 47, 1, 4000, 1]

def isBlank (c : Char) : Bool := blankRuns.covers c.toNat

def trimLeft : List Char → List Char
  | [] => []
  | c :: rest => if isBlank c then trimLeft rest else c :: rest

def trim (chars : List Char) : List Char := (trimLeft (trimLeft chars).reverse).reverse

end Custody.Text
