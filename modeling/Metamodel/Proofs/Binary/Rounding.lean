import Mathlib.Algebra.Group.Nat.Defs
import Metamodel.Binary.Shortest

/-!
# Decimals that round to a number

Rounding depends on the magnitude alone, and not on how it is spelled as a ratio or with which power
of ten. The magnitude of a number rounds to the number, and so does its exact decimal: the limits by
which far decimals are recognised leave it out. So the search for the shortest decimal always ends
with one that rounds to the number.

* `nearestRank_congr`, `nearestRankOfDecimal_shift`: equal magnitudes are rounded alike.
* `nearestRank_units`, `nearestRankOfDecimal_exact`: numbers of the format round to themselves.
* `nearestRankOfDecimal_shortest`: the shortest decimal of a number rounds to it.
-/

namespace Metamodel

/-- Rounding depends on the ratio alone. -/
theorem roundNearest_mul_right {tie : TieRule} {num den c : Nat} (hc : 0 < c) :
    roundNearest tie (num * c) (den * c) = roundNearest tie num den := by
  have hmod : 2 * (num * c % (den * c)) = 2 * (num % den) * c := by
    rw [Nat.mul_mod_mul_right, Nat.mul_assoc]
  simp only [roundNearest, hmod, Nat.mul_div_mul_right _ _ hc, Nat.mul_lt_mul_right hc]

namespace BinaryFormat

variable {F : BinaryFormat} {rank : Nat}

/-! ## Equal magnitudes -/

theorem nearestRank_mul_right {num den c : Nat} (hc : 0 < c) :
    F.nearestRank (num * c) (den * c) = F.nearestRank num den := by
  have hscaled : num * c * Nat.pow 2 F.scale = num * Nat.pow 2 F.scale * c :=
    Nat.mul_right_comm ..
  have hden (k : Nat) : den * c * k = den * k * c := Nat.mul_right_comm ..
  simp only [nearestRank, hscaled, hden, Nat.mul_div_mul_right _ _ hc, roundNearest_mul_right hc]

/-- Ratios of one magnitude are rounded alike. -/
theorem nearestRank_congr {num den num' den' : Nat} (hden : 0 < den) (hden' : 0 < den')
    (h : num * den' = num' * den) : F.nearestRank num den = F.nearestRank num' den' := by
  rw [← nearestRank_mul_right hden', h, Nat.mul_comm den den', nearestRank_mul_right hden]

theorem nearestRankOfDecimal_zero (exponent : Int) : F.nearestRankOfDecimal 0 exponent = 0 := by
  simp only [nearestRankOfDecimal, true_or, if_true]

theorem nearestRank_zero {den : Nat} (hden : 0 < den) : F.nearestRank 0 den = 0 := by
  simp [nearestRank, roundNearest, hden]

theorem decimalLength_mul_ten {n : Nat} (hn : 0 < n) :
    decimalLength (n * 10) = decimalLength n + 1 := by
  have h := Nat.toDigits_append_toDigits (b := 10) (by decide) hn (show 0 < 10 by decide)
  rw [Nat.add_zero, Nat.mul_comm] at h
  rw [decimalLength, ← h, List.length_append]
  rfl

theorem decimalLength_mul_pow {n : Nat} (hn : 0 < n) (k : Nat) :
    decimalLength (n * 10 ^ k) = decimalLength n + k := by
  induction k with
  | zero => rw [Nat.pow_zero, Nat.mul_one, Nat.add_zero]
  | succ k ih =>
    rw [Nat.pow_succ, ← Nat.mul_assoc,
      decimalLength_mul_ten (Nat.mul_pos hn (Nat.pow_pos (by decide))), ih, Nat.add_assoc]

/-- Decimals of one magnitude are rounded alike. -/
theorem nearestRankOfDecimal_shift (digits k : Nat) (exponent : Int) :
    F.nearestRankOfDecimal (digits * 10 ^ k) exponent =
      F.nearestRankOfDecimal digits (exponent + k) := by
  rcases Nat.eq_zero_or_pos digits with rfl | hdigits
  · rw [Nat.zero_mul, nearestRankOfDecimal_zero, nearestRankOfDecimal_zero]
  · have hzero : digits * 10 ^ k = 0 ↔ digits = 0 :=
      Nat.mul_eq_zero.trans (or_iff_left (Nat.ne_of_gt (Nat.pow_pos (by decide))))
    have hplace : ((decimalLength digits + k : Nat) : Int) + exponent =
        decimalLength digits + (exponent + k) := by omega
    simp only [nearestRankOfDecimal, decimalLength_mul_pow hdigits, hplace, hzero]
    congr 2
    refine nearestRank_congr (Nat.pow_pos (by decide)) (Nat.pow_pos (by decide)) ?_
    have hexponents : k + exponent.toNat + (-(exponent + k)).toNat =
        (exponent + k).toNat + (-exponent).toNat := by omega
    simp only [Nat.pow_eq, Nat.mul_assoc, ← Nat.pow_add]
    rw [hexponents]

/-! ## Numbers of the format -/

/-- Behind its leading bit, the magnitude of a rank has the bits of the rank. -/
theorem units_of_le (h : 2 ^ F.fractionBits ≤ rank) :
    F.units rank = (2 ^ F.fractionBits + rank % 2 ^ F.fractionBits) *
      2 ^ (rank / 2 ^ F.fractionBits - 1) := by
  have hrun : rank / 2 ^ F.fractionBits ≠ 0 :=
    Nat.ne_of_gt (Nat.div_pos h (Nat.pow_pos (by decide)))
  simp only [units, Nat.pow_eq, if_neg hrun]

/-- The magnitude of a rank has the bits below the leading one, and one for each run. -/
theorem units_bounds (h : 2 ^ F.fractionBits ≤ rank) :
    2 ^ (F.fractionBits + (rank / 2 ^ F.fractionBits - 1)) ≤ F.units rank ∧
      F.units rank < 2 ^ (F.fractionBits + (rank / 2 ^ F.fractionBits - 1) + 1) := by
  have hmod : rank % 2 ^ F.fractionBits < 2 ^ F.fractionBits :=
    Nat.mod_lt _ (Nat.pow_pos (by decide))
  rw [units_of_le h, Nat.pow_succ, Nat.pow_add, Nat.mul_right_comm]
  exact ⟨Nat.mul_le_mul_right _ (by omega),
    Nat.mul_lt_mul_of_pos_right (by omega) (Nat.pow_pos (by decide))⟩

theorem log2_units (h : 2 ^ F.fractionBits ≤ rank) :
    (F.units rank).log2 = F.fractionBits + (rank / 2 ^ F.fractionBits - 1) := by
  have hbounds := units_bounds h
  have hpos : 0 < F.units rank := Nat.lt_of_lt_of_le (Nat.pow_pos (by decide)) hbounds.1
  exact (Nat.log2_eq_iff (Nat.ne_of_gt hpos)).mpr hbounds

/-- The magnitude of a finite rank rounds to the rank. -/
theorem nearestRank_units (h : rank < F.infinityRank) :
    F.nearestRank (F.units rank) (2 ^ F.scale) = rank := by
  have hscale : 0 < 2 ^ F.scale := Nat.pow_pos (by decide)
  have hmin : min rank F.infinityRank = rank := Nat.min_eq_left (Nat.le_of_lt h)
  simp only [nearestRank, Nat.pow_eq, Nat.mul_div_cancel _ hscale]
  by_cases hsmall : rank < 2 ^ F.fractionBits
  · -- No bits are dropped.
    have hdropped : rank.log2 - F.fractionBits = 0 := by
      rcases Nat.eq_zero_or_pos rank with rfl | hpos
      · simp
      · have := (Nat.log2_lt (Nat.ne_of_gt hpos)).mpr hsmall
        omega
    rw [units_of_lt hsmall, hdropped, Nat.pow_zero, Nat.mul_one, Nat.zero_mul, Nat.zero_add,
      roundNearest_mul hscale, hmin]
  · have hlarge := Nat.not_lt.mp hsmall
    have hdivmod := Nat.div_add_mod' rank (2 ^ F.fractionBits)
    have hrun : 0 < rank / 2 ^ F.fractionBits :=
      Nat.div_pos hlarge (Nat.pow_pos (by decide))
    -- What is dropped are the zeros behind the bits of the rank.
    rw [log2_units hlarge, Nat.add_sub_cancel_left, units_of_le hlarge, Nat.mul_assoc,
      Nat.mul_comm (2 ^ (rank / _ - 1)),
      roundNearest_mul (Nat.mul_pos hscale (Nat.pow_pos (by decide)))]
    obtain ⟨run, hr⟩ : ∃ run, rank / 2 ^ F.fractionBits = run + 1 :=
      ⟨_, (Nat.succ_pred_eq_of_pos hrun).symm⟩
    rw [hr, Nat.add_mul, Nat.one_mul] at hdivmod
    rw [hr, Nat.add_sub_cancel, ← Nat.add_assoc, hdivmod, hmin]

/-! ## Exact decimals -/

/-- A finite rank is in one of the runs before infinity. -/
theorem run_le (h : rank < F.infinityRank) :
    F.fractionBits + rank / 2 ^ F.fractionBits ≤ F.scale + 2 ^ (F.exponentBits - 1) := by
  rw [infinityRank, Nat.pow_eq, Nat.pow_eq, Nat.mul_comm] at h
  have hrun := Nat.div_lt_of_lt_mul h
  generalize rank / 2 ^ F.fractionBits = run at *
  rw [scale, Nat.pow_eq]
  cases hE : F.exponentBits with
  | zero =>
    rw [hE] at hrun
    exact absurd hrun (Nat.not_lt_zero _)
  | succ e =>
    rw [hE, Nat.pow_succ] at hrun
    rw [Nat.add_sub_cancel]
    omega

theorem units_lt (h : rank < F.infinityRank) :
    F.units rank < 2 ^ (F.scale + 2 ^ (F.exponentBits - 1)) := by
  refine Nat.lt_of_lt_of_le ?_ (Nat.pow_le_pow_right (by decide) (run_le h))
  by_cases hsmall : rank < 2 ^ F.fractionBits
  · rw [units_of_lt hsmall, Nat.div_eq_of_lt hsmall]
    exact hsmall
  · have hlarge := Nat.not_lt.mp hsmall
    have hrun : 0 < rank / 2 ^ F.fractionBits := Nat.div_pos hlarge (Nat.pow_pos (by decide))
    have hexponent : F.fractionBits + (rank / 2 ^ F.fractionBits - 1) + 1 =
        F.fractionBits + rank / 2 ^ F.fractionBits := by
      generalize rank / 2 ^ F.fractionBits = run at *
      omega
    exact hexponent ▸ (units_bounds hlarge).2

/-- The exact decimal of a finite rank has no more digits than decimals that are rounded. -/
theorem decimalLength_exactDigits_le (h : rank < F.infinityRank) :
    decimalLength (F.exactDigits rank) ≤ F.scale + 2 ^ (F.exponentBits - 1) := by
  have hpos : 0 < F.scale + 2 ^ (F.exponentBits - 1) :=
    Nat.add_pos_right _ (Nat.pow_pos (by decide))
  rw [decimalLength, Nat.length_toDigits_le_iff (by decide) hpos]
  calc F.exactDigits rank
      < 2 ^ (F.scale + 2 ^ (F.exponentBits - 1)) * 5 ^ F.scale :=
        Nat.mul_lt_mul_of_pos_right (units_lt h) (Nat.pow_pos (by decide))
    _ ≤ 2 ^ (F.scale + 2 ^ (F.exponentBits - 1)) * 5 ^ (F.scale + 2 ^ (F.exponentBits - 1)) :=
        Nat.mul_le_mul_left _ (Nat.pow_le_pow_right (by decide) (Nat.le_add_right _ _))
    _ = 10 ^ (F.scale + 2 ^ (F.exponentBits - 1)) := by rw [← Nat.mul_pow]

/-- The exact decimal of a finite rank rounds to the rank. -/
theorem nearestRankOfDecimal_exact (h : rank < F.infinityRank) :
    F.nearestRankOfDecimal (F.exactDigits rank) (-F.scale) = rank := by
  have hratio : F.nearestRank (F.exactDigits rank * 10 ^ 0) (10 ^ F.scale) = rank := by
    refine Eq.trans (nearestRank_congr (Nat.pow_pos (by decide)) (Nat.pow_pos (by decide)) ?_)
      (nearestRank_units h)
    rw [Nat.pow_zero, Nat.mul_one, exactDigits, Nat.pow_eq, Nat.mul_assoc, ← Nat.mul_pow]
  have hlength := decimalLength_exactDigits_le h
  have hlengthPos : 0 < decimalLength (F.exactDigits rank) := Nat.length_toDigits_pos
  have hnegative : (-(F.scale : Int)).toNat = 0 := by omega
  have hpositive : (-(-(F.scale : Int))).toNat = F.scale := by omega
  rcases Nat.eq_zero_or_pos (F.exactDigits rank) with hzero | hpos
  · rw [hzero, Nat.zero_mul, nearestRank_zero (Nat.pow_pos (by decide))] at hratio
    rw [hzero, nearestRankOfDecimal_zero, hratio]
  · simp only [nearestRankOfDecimal, hnegative, hpositive, Nat.pow_eq]
    rw [if_neg, if_neg, hratio]
    · omega
    · omega

/-! ## Shortest decimals -/

theorem accepts_shortestWithin (tie : TieRule) (h : rank < F.infinityRank) (cut : Nat) :
    F.accepts rank (F.shortestWithin tie rank cut) = true := by
  induction cut with
  | zero => exact beq_iff_eq.mpr (nearestRankOfDecimal_exact h)
  | succ cut ih =>
    rw [shortestWithin]
    split
    · next d hd => exact List.find?_some hd
    · exact ih

end BinaryFormat

namespace Decimal

/-- Trailing zeros are left out of the digits and counted by the exponent. -/
theorem exists_trimZerosAux (fuel : Nat) (d : Decimal) :
    ∃ k : Nat, d.digits = (trimZerosAux fuel d).digits * 10 ^ k ∧
      (trimZerosAux fuel d).exponent = d.exponent + k := by
  induction fuel generalizing d with
  | zero => exact ⟨0, by simp [trimZerosAux]⟩
  | succ fuel ih =>
    rw [trimZerosAux]
    split
    · next h =>
      obtain ⟨k, hdigits, hexponent⟩ := ih ⟨d.digits / 10, d.exponent + 1⟩
      refine ⟨k + 1, ?_, ?_⟩
      · rw [Nat.pow_succ, ← Nat.mul_assoc, ← hdigits]
        exact (Nat.div_mul_cancel (Nat.dvd_of_mod_eq_zero h.2)).symm
      · rw [hexponent]
        push_cast
        omega
    · exact ⟨0, by simp⟩

end Decimal

namespace BinaryFormat

variable {F : BinaryFormat} {rank : Nat}

/-- The shortest decimal of a finite rank rounds to the rank. -/
theorem nearestRankOfDecimal_shortest (tie : TieRule) (h : rank < F.infinityRank) :
    F.nearestRankOfDecimal (F.shortest tie rank).digits (F.shortest tie rank).exponent = rank := by
  have haccepts := beq_iff_eq.mp
    (accepts_shortestWithin tie h (decimalLength (F.exactDigits rank) - 1))
  rw [shortest, Decimal.trimZeros]
  generalize F.shortestWithin tie rank _ = d at *
  obtain ⟨k, hdigits, hexponent⟩ := d.exists_trimZerosAux (decimalLength d.digits)
  rw [hexponent, ← nearestRankOfDecimal_shift, ← hdigits]
  exact haccepts

end BinaryFormat

end Metamodel
