import Metamodel.Binary.Basic

/-!
# Rounding to a binary format

A ratio is rounded to the nearest natural number; a tie rule says to which one if two are equally
near. A magnitude is rounded to the nearest number of a format, and to the one with the even rank
if two are equally near. Decimals, integers, and products, quotients and conversions of binary
numbers are rounded this way from their exact value.

* `roundNearest_mul`: a whole quotient is not changed.
-/

namespace Metamodel

/-- Which one of two equally near natural numbers is taken. -/
inductive TieRule where
  /-- The even one. -/
  | even
  /-- The greater one. -/
  | greater
deriving DecidableEq, Repr

/-- Of `n` and its successor, the successor is taken. -/
def TieRule.takesSuccessor : TieRule → Nat → Bool
  | even, n => n % 2 = 1
  | greater, _ => true

/-- The nearest natural number to `num / den`. -/
def roundNearest (tie : TieRule) (num den : Nat) : Nat :=
  let below := num / den
  let excess := 2 * (num % den)
  if excess < den then below
  else if den < excess then below + 1
  else if tie.takesSuccessor below then below + 1
  else below

/-- A whole quotient is its own nearest number. -/
theorem roundNearest_mul {tie : TieRule} {n d : Nat} (h : 0 < d) :
    roundNearest tie (n * d) d = n := by
  simp [roundNearest, h]

namespace BinaryFormat

variable (F : BinaryFormat)

/-- The rank nearest to the magnitude `num / den`. The quotient is counted in units of the least
positive magnitude; its length decides how many low bits the format drops there. -/
def nearestRank (num den : Nat) : Nat :=
  let scaled := num * Nat.pow 2 F.scale
  let dropped := (scaled / den).log2 - F.fractionBits
  let rounded := roundNearest .even scaled (den * Nat.pow 2 dropped)
  min (dropped * Nat.pow 2 F.fractionBits + rounded) F.infinityRank

/-- The number of decimal digits of a natural number; one for zero. -/
def decimalLength (n : Nat) : Nat :=
  (Nat.toDigits 10 n).length

/-- The rank nearest to `digits * 10 ^ exponent`. Decimals far outside the range of the format are
recognised by the place of their first digit, so that no great power is computed for them. -/
def nearestRankOfDecimal (digits : Nat) (exponent : Int) : Nat :=
  let place : Int := decimalLength digits + exponent
  if digits = 0 ∨ place < -(F.scale + 2 : Nat) then 0
  else if (Nat.pow 2 (F.exponentBits - 1) + 1 : Nat) < place then F.infinityRank
  else F.nearestRank (digits * Nat.pow 10 exponent.toNat) (Nat.pow 10 (-exponent).toNat)

end BinaryFormat

namespace Binary

variable {F : BinaryFormat}

/-- The number nearest to a natural number, with the given sign. -/
def ofNat (negative : Bool) (n : Nat) : Binary F :=
  ofRank negative (F.nearestRank n 1)

/-- The number nearest to the decimal `digits * 10 ^ exponent`, with the given sign. -/
def ofDecimal (negative : Bool) (digits : Nat) (exponent : Int) : Binary F :=
  ofRank negative (F.nearestRankOfDecimal digits exponent)

/-- The number of the format `F` nearest to a number of the format `G`. -/
def convert {G : BinaryFormat} (x : Binary G) : Binary F :=
  if x.isFinite then ofRank x.negative (F.nearestRank x.units (Nat.pow 2 G.scale))
  else ofRank x.negative F.infinityRank

/-- The rounded product of two finite numbers. -/
def mul (x y : Binary F) : Binary F :=
  ofRank (x.negative != y.negative)
    (F.nearestRank (x.units * y.units) (Nat.pow 2 F.scale * Nat.pow 2 F.scale))

/-- The rounded quotient of a finite number and a positive finite number. -/
def div (x y : Binary F) : Binary F :=
  ofRank (x.negative != y.negative) (F.nearestRank x.units y.units)

end Binary

end Metamodel
