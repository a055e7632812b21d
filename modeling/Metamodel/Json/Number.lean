import Metamodel.Binary.Rounding
import Metamodel.Json.Basic

/-!
# Numbers of JSON text

A number without point and exponent that fits in 64 bits is an integer and is read exactly. All
other numbers are approximated: as many digits as fit in 64 bits are read, and are then scaled by a
power of ten in the 64 bit format, with one rounding for each step. The result is the nearest
number if the digits and the power of ten are small, and may be a neighbour of it if not. A number
beyond the greatest finite one is refused.

* `absorbDigits_nil`: without digits nothing is read.
-/

namespace Metamodel.Json

/-- The digits that can be appended to `n` within 64 bits, as the number they lead to, and the
digits that are left. -/
def absorbDigits (n : Nat) : List Char → Nat × List Char
  | [] => (n, [])
  | c :: rest =>
    let next := 10 * n + digitValue c
    if next < UInt64.size then absorbDigits next rest else (n, c :: rest)

/-- Without digits nothing is read. -/
theorem absorbDigits_nil (n : Nat) : absorbDigits n [] = (n, []) := rfl

/-- The digits of a numeral that are read, and the power of ten by which they are scaled. Digits
before the point that are not read still count as places; those after the point do not. -/
def leadingDigits (n : Numeral) : Nat × Int :=
  let (whole, wholeLeft) := absorbDigits 0 n.whole
  let (all, fractionLeft) := absorbDigits whole n.fraction
  (all, wholeLeft.length - (n.fraction.length - fractionLeft.length : Nat) +
    Numeral.exponentValue n.exponent)

/-- The greatest power of ten in the 64 bit format. -/
def greatestPower : Nat := 308

/-- The number of the 64 bit format that is nearest to a power of ten. -/
def powerOfTen (k : Nat) : Binary .double :=
  .ofNat false (Nat.pow 10 k)

/-- A number divided by `10 ^ k`, with one rounding for every `10 ^ 308`. -/
def scaleDown (x : Binary .double) (k : Nat) : Binary .double :=
  if _h : k ≤ greatestPower then x.div (powerOfTen k)
  else if x.rank = 0 then x
  else scaleDown (x.div (powerOfTen greatestPower)) (k - greatestPower)
termination_by k
decreasing_by simp only [greatestPower] at *; omega

/-- A number multiplied by `10 ^ k`, or `none` if the product is infinite. -/
def scaleUp (x : Binary .double) (k : Nat) : Option (Binary .double) :=
  if k ≤ greatestPower then
    let product := x.mul (powerOfTen k)
    if product.isFinite then some product else none
  else if x.rank = 0 then some x
  else none

/-- The approximation of a numeral in the 64 bit format. -/
def approximate (n : Numeral) : Option (Binary .double) :=
  let (digits, scale) := leadingDigits n
  let x : Binary .double := .ofNat false digits
  let scaled := if 0 ≤ scale then scaleUp x scale.toNat else some (scaleDown x (-scale).toNat)
  scaled.map fun y => .ofRank n.negative y.rank

/-- The integer that a numeral spells, if it has neither point nor exponent and fits in 64 bits.
Negative zero is not an integer. -/
def integer? (n : Numeral) : Option Int :=
  let value := digitsValue n.whole
  if !n.isWhole then none
  else if n.negative then
    if 0 < value ∧ value ≤ UInt64.size / 2 then some (-value) else none
  else if value < UInt64.size then some value
  else none

/-- The number of the format `F` that a numeral is read as. -/
def binary? (F : BinaryFormat) (n : Numeral) : Option (Binary F) :=
  match integer? n with
  | some i => some (.ofNat (i < 0) i.natAbs)
  | none => (approximate n).map (·.convert)

/-- The integer of 32 bits that a numeral is read as. -/
def int32? (n : Numeral) : Option Int32 :=
  (integer? n).bind fun i =>
    if Int32.minValue.toInt ≤ i ∧ i ≤ Int32.maxValue.toInt then some (Int32.ofInt i) else none

end Metamodel.Json
