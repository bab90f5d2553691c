/-!
# Binary fractions of 64 bits

Nonnegative numbers with a significand of 53 bits, kept exactly as integers. Every operation
computes the exact result as a quotient and rounds it once, to the nearest number, and to the even
one of two that are equally near. A result beyond the largest number is absent.
-/

namespace Custody

/-- The number `significand * 2 ^ exponent`. -/
structure Binary64 where
  significand : Nat
  exponent : Int
deriving DecidableEq

namespace Binary64

/-- Bits of the significand. -/
def precision : Nat := 53

/-- The exponent of the smallest numbers. -/
def minExponent : Int := -1074

/-- The largest exponent of a full significand. -/
def maxExponent : Int := 971

def zero : Binary64 := ⟨0, minExponent⟩

def isZero (x : Binary64) : Bool := x.significand = 0

/-- The number as a quotient. -/
def ratio (x : Binary64) : Nat × Nat :=
  (x.significand * Nat.pow 2 x.exponent.toNat, Nat.pow 2 (-x.exponent).toNat)

/-- The integer nearest to a quotient, the even one of two. -/
def nearest (num den : Nat) : Nat :=
  let floor := num / den
  let twice := 2 * (num % den)
  if twice < den then floor
  else if den < twice then floor + 1
  else if floor % 2 = 0 then floor
  else floor + 1

/-- A quotient measured in units of `2 ^ exponent`. -/
def inUnits (num den : Nat) (exponent : Int) : Nat × Nat :=
  (num * Nat.pow 2 (-exponent).toNat, den * Nat.pow 2 exponent.toNat)

/-- The exponent at which a positive quotient has a full significand, or the least exponent. -/
def exponentOf (num den : Nat) : Int :=
  let guess : Int := (num.log2 : Int) - (den.log2 : Int) - precision
  let (num, den) := inUnits num den guess
  max minExponent (if num / den < Nat.pow 2 precision then guess else guess + 1)

/-- The number nearest to a quotient, if it is not too large. -/
def ofRatio (num den : Nat) : Option Binary64 :=
  if num = 0 then some zero
  else
    let exponent := exponentOf num den
    let (num, den) := inUnits num den exponent
    let significand := nearest num den
    let rounded : Binary64 :=
      if significand = Nat.pow 2 precision then ⟨Nat.pow 2 (precision - 1), exponent + 1⟩
      else ⟨significand, exponent⟩
    if rounded.exponent ≤ maxExponent then some rounded else none

def ofNat (n : Nat) : Option Binary64 := ofRatio n 1

def mul (left right : Binary64) : Option Binary64 :=
  ofRatio (left.ratio.1 * right.ratio.1) (left.ratio.2 * right.ratio.2)

/-- The quotient by a number that is not zero. -/
def div (left right : Binary64) : Option Binary64 :=
  ofRatio (left.ratio.1 * right.ratio.2) (left.ratio.2 * right.ratio.1)

end Binary64

end Custody
