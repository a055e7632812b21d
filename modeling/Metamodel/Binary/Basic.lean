/-!
# Binary floating point numbers

`Binary F` holds the numbers of an IEEE interchange format without its NaNs: a sign, and the rank
of the magnitude among the magnitudes of the format in ascending order. The rank is what the bits
below the sign spell out, so neighbouring numbers have neighbouring ranks and every number has
one representation. Magnitudes are counted exactly, as multiples of the least positive one.

* `units_zero`: the least rank is zero.
* `units_of_lt`: up to the least normal number, the rank is the magnitude.
-/

namespace Metamodel

/-- A binary interchange format. -/
structure BinaryFormat where
  /-- The bits of the significand below its leading bit. -/
  fractionBits : Nat
  /-- The bits of the exponent. -/
  exponentBits : Nat
deriving DecidableEq, Repr

namespace BinaryFormat

/-- The 32 bit format. -/
def single : BinaryFormat := ⟨23, 8⟩

/-- The 64 bit format. -/
def double : BinaryFormat := ⟨52, 11⟩

/-- The least positive magnitude is `2 ^ -scale`. -/
def scale (F : BinaryFormat) : Nat :=
  Nat.pow 2 (F.exponentBits - 1) + F.fractionBits - 2

/-- The rank of infinity, which follows the rank of the greatest finite magnitude. -/
def infinityRank (F : BinaryFormat) : Nat :=
  (Nat.pow 2 F.exponentBits - 1) * Nat.pow 2 F.fractionBits

/-- The magnitude of a finite rank, in units of the least positive magnitude. In each run of
`2 ^ fractionBits` ranks neighbours are equally far apart, and from the second run on the distance
doubles from one run to the next. -/
def units (F : BinaryFormat) (rank : Nat) : Nat :=
  let width := Nat.pow 2 F.fractionBits
  let run := rank / width
  if run = 0 then rank
  else (width + rank % width) * Nat.pow 2 (run - 1)

/-- Rank zero is the magnitude zero. -/
theorem units_zero (F : BinaryFormat) : F.units 0 = 0 := by
  simp [units]

/-- Below the least normal number the rank is the magnitude. -/
theorem units_of_lt {F : BinaryFormat} {rank : Nat} (h : rank < Nat.pow 2 F.fractionBits) :
    F.units rank = rank := by
  simp only [units, Nat.div_eq_of_lt h, if_true]

end BinaryFormat

/-- A number of the format `F`, zero and infinity of either sign included. -/
structure Binary (F : BinaryFormat) where
  /-- The sign, which zero has too. -/
  negative : Bool
  /-- The place of the magnitude among all magnitudes of the format. -/
  rank : Nat
  /-- Infinity is the greatest magnitude. -/
  rank_le : rank ≤ F.infinityRank
deriving DecidableEq, Repr

namespace Binary

variable {F : BinaryFormat}

/-- The number is not infinite. -/
def isFinite (x : Binary F) : Bool :=
  x.rank < F.infinityRank

/-- The magnitude in units of the least positive one. -/
def units (x : Binary F) : Nat :=
  F.units x.rank

/-- The number with the given sign and the given rank, or infinity if the rank is too great. -/
def ofRank (negative : Bool) (rank : Nat) : Binary F where
  negative := negative
  rank := min rank F.infinityRank
  rank_le := Nat.min_le_right _ _

/-- Positive zero. -/
def zero : Binary F :=
  ofRank false 0

instance : Inhabited (Binary F) := ⟨zero⟩

end Binary

end Metamodel
