import Custody.Decimal.Binary64
/-!
# Shortest decimals

The fewest digits that read back as a given binary number. The numbers that round to it form an
interval, whose ends belong to it if the significand is even. For one digit, two digits, and so on,
the two neighbours on the decimal grid are tried; the first grid with a hit wins, of two hits the
nearer, and of two equally near ones the even.
-/

namespace Custody

/-- The number `digits * 10 ^ exponent`. -/
structure Decimal where
  digits : Nat
  exponent : Int
deriving DecidableEq

namespace Decimal

/-- Compare `a * 10 ^ i` with `n * 2 ^ j`. -/
def compareScaled (a : Nat) (i : Int) (n : Nat) (j : Int) : Ordering :=
  compare (a * Nat.pow 10 i.toNat * Nat.pow 2 (-j).toNat)
    (n * Nat.pow 2 j.toNat * Nat.pow 10 (-i).toNat)

/-- The decimal lies in the interval of what rounds to `x`. The gap below a power of two is half the
gap above it. -/
def readsBack (x : Binary64) (decimal : Decimal) : Bool :=
  let narrow := x.significand = Nat.pow 2 (Binary64.precision - 1) &&
    Binary64.minExponent < x.exponent
  let low := if narrow then 4 * x.significand - 1 else 4 * x.significand - 2
  let high := 4 * x.significand + 2
  let ends := x.significand % 2 = 0
  let toLow := compareScaled decimal.digits decimal.exponent low (x.exponent - 2)
  let toHigh := compareScaled decimal.digits decimal.exponent high (x.exponent - 2)
  (toLow = .gt || (ends && toLow = .eq)) && (toHigh = .lt || (ends && toHigh = .eq))

/-- The least `p` with `x < 10 ^ p`, for a number that is not zero. The estimate from the binary
logarithm is never too large and at most three short. -/
def pointPosition (x : Binary64) : Int :=
  let guess := (((x.significand.log2 : Int) + x.exponent) * 1233).fdiv 4096
  let fits (p : Int) : Bool := compareScaled 1 p x.significand x.exponent = .gt
  if fits guess then guess
  else if fits (guess + 1) then guess + 1
  else if fits (guess + 2) then guess + 2
  else guess + 3

/-- The whole number of grid steps below `x`, the step being `10 ^ k`. -/
def floorAt (x : Binary64) (k : Int) : Nat :=
  x.ratio.1 * Nat.pow 10 (-k).toNat / (x.ratio.2 * Nat.pow 10 k.toNat)

/-- The neighbour of `x` on a grid that reads back, if any does. -/
def onGrid (x : Binary64) (k : Int) : Option Decimal :=
  let floor := floorAt x k
  let below : Decimal := ⟨floor, k⟩
  let above : Decimal := ⟨floor + 1, k⟩
  match readsBack x below, readsBack x above with
  | false, false => none
  | true, false => some below
  | false, true => some above
  | true, true =>
    match compareScaled (2 * floor + 1) k (2 * x.significand) x.exponent with
    | .lt => some above
    | .gt => some below
    | .eq => some (if floor % 2 = 0 then below else above)

/-- Drop zeros at the end, at most so many. -/
def strip : Nat → Decimal → Decimal
  | 0, decimal => decimal
  | count + 1, decimal =>
    if decimal.digits % 10 = 0 then strip count ⟨decimal.digits / 10, decimal.exponent + 1⟩
    else decimal

/-- Digits that are enough for every number. -/
def maxDigits : Nat := 17

/-- The shortest decimal of a number that is not zero. -/
def shortest (x : Binary64) : Decimal :=
  let point := pointPosition x
  let found := (List.range maxDigits).findSome? fun n => onGrid x (point - (n + 1 : Nat))
  strip maxDigits (found.getD ⟨floorAt x (point - maxDigits), point - maxDigits⟩)

/-! ## Layout -/

/-- How digits are laid out. -/
structure Layout where
  /-- Numbers from this power of ten on are written without an exponent, -/
  plainFrom : Int
  /-- as long as they stay below this power. -/
  plainBelow : Int

def zeros (count : Nat) : String := String.ofList (List.replicate count '0')

/-- Digits with a point, at least one digit on each side of it. -/
def positional (digits : String) (point : Int) : String :=
  if point ≤ 0 then "0." ++ zeros (-point).toNat ++ digits
  else if digits.length ≤ point.toNat then digits ++ zeros (point.toNat - digits.length) ++ ".0"
  else
    String.ofList (digits.toList.take point.toNat) ++ "." ++
      String.ofList (digits.toList.drop point.toNat)

/-- Digits with an exponent, which always has a sign. -/
def scientific (digits : String) (exponent : Int) : String :=
  let sign := if exponent < 0 then "-" else "+"
  let mantissa :=
    match digits.toList with
    | [] => ""
    | [first] => String.singleton first
    | first :: rest => String.singleton first ++ "." ++ String.ofList rest
  mantissa ++ "e" ++ sign ++ toString exponent.natAbs

/-- The text of a binary number. -/
def Layout.render (layout : Layout) (negative : Bool) (x : Binary64) : String :=
  let sign := if negative then "-" else ""
  if x.isZero then sign ++ "0.0"
  else
    let decimal := shortest x
    let digits := toString decimal.digits
    let leading : Int := decimal.exponent + digits.length - 1
    if layout.plainFrom ≤ leading && leading < layout.plainBelow then
      sign ++ positional digits (leading + 1)
    else sign ++ scientific digits leading

end Decimal

end Custody
