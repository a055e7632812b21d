import Mathlib.Data.List.Induction
import Metamodel.Proofs.Binary.Rounding
import Metamodel.Proofs.Json.Numbers
import Metamodel.Proofs.Literal.Spelling

/-!
# Literals, read back

A number that is written as a numeral is found again in its text. A finite binary number is written
with the digits of its shortest decimal, which may be set out with zeros around them or with an
exponent; the numeral denotes the decimal in any case, and so rounds to the number.

* `exists_numeral_shift`: a numeral denotes the decimal that it spells.
* `ofDecimal_ofBinary`: the numeral of a finite number rounds to it.
* `readBinary_text`, `readInt32_text`: numbers are read as they were written.
-/

namespace Metamodel

/-! ## Rows of digits -/

theorem digitsValue_append (ds es : List Char) :
    digitsValue (ds ++ es) = digitsValue ds * 10 ^ es.length + digitsValue es := by
  induction es using List.reverseRecOn with
  | nil => simp [digitsValue]
  | append_singleton es c ih =>
    rw [← List.append_assoc, digitsValue_append_singleton, ih, digitsValue_append_singleton,
      List.length_append, List.length_singleton, Nat.pow_succ, ← Nat.mul_assoc]
    generalize digitsValue ds * 10 ^ es.length = high
    omega

theorem digitsValue_replicate_zero (k : Nat) : digitsValue (List.replicate k '0') = 0 := by
  induction k with
  | zero => rfl
  | succ k ih =>
    rw [List.replicate_succ', digitsValue_append_singleton, ih]
    rfl

/-- Zeros behind the digits multiply by a power of ten. -/
theorem digitsValue_append_zeros (ds : List Char) (k : Nat) :
    digitsValue (ds ++ List.replicate k '0') = digitsValue ds * 10 ^ k := by
  rw [digitsValue_append, digitsValue_replicate_zero, List.length_replicate, Nat.add_zero]

/-- Zeros in front of the digits do not count. -/
theorem digitsValue_zeros_append (k : Nat) (ds : List Char) :
    digitsValue (List.replicate k '0' ++ ds) = digitsValue ds := by
  rw [digitsValue_append, digitsValue_replicate_zero, Nat.zero_mul, Nat.zero_add]

/-! ## Numerals -/

namespace NumberLayout

variable {layout : NumberLayout}

/-- In plain notation the digits may have zeros in front of them or behind them, which the place of
the point makes up for. -/
theorem exists_plain_shift {ds : List Char} (hne : ds ≠ []) (exponent : Int) :
    ∃ k : Nat, digitsValue (plainWhole ds exponent ++ plainFraction ds exponent) =
        digitsValue ds * 10 ^ k ∧
      -((plainFraction ds exponent).length : Int) + k = exponent - (ds.length - 1 : Nat) := by
  have hlength : 0 < ds.length := List.length_pos_iff.mpr hne
  unfold plainWhole plainFraction
  by_cases hneg : exponent < 0
  · refine ⟨0, ?_, ?_⟩
    · rw [if_pos hneg, if_pos hneg, ← List.append_assoc, ← List.replicate_one,
        List.replicate_append_replicate, digitsValue_zeros_append, Nat.pow_zero, Nat.mul_one]
    · rw [if_pos hneg, List.length_append, List.length_replicate]
      omega
  · rw [if_neg hneg, if_neg hneg]
    by_cases hshort : ds.length ≤ exponent.toNat + 1
    · refine ⟨exponent.toNat + 1 - ds.length + 1, ?_, ?_⟩
      · rw [if_pos hshort, List.take_of_length_le hshort, List.append_assoc, ← List.replicate_one,
          List.replicate_append_replicate, digitsValue_append_zeros]
      · rw [if_pos hshort, List.length_singleton]
        omega
    · have hzeros : exponent.toNat + 1 - ds.length = 0 := by omega
      refine ⟨0, ?_, ?_⟩
      · rw [if_neg hshort, hzeros, List.replicate_zero, List.append_nil, List.take_append_drop,
          Nat.pow_zero, Nat.mul_one]
      · rw [if_neg hshort, List.length_drop]
        omega

theorem exponentValue_exponentPart (hsign : layout.sign ≠ .minus) (exponent : Int) :
    Numeral.exponentValue (some (layout.exponentPart exponent)) = exponent := by
  unfold exponentPart
  split
  · simp only [Numeral.exponentValue, digitsValue_toDigits]
    omega
  · cases h : layout.sign with
    | minus => exact absurd h hsign
    | _ =>
      simp only [Numeral.exponentValue, digitsValue_toDigits]
      omega

/-- The numeral of a decimal denotes the decimal, up to zeros behind its digits. -/
theorem exists_numeral_shift (hsign : layout.sign ≠ .minus) (negative : Bool) (d : Decimal) :
    ∃ k : Nat, (layout.numeral negative d).significand = d.digits * 10 ^ k ∧
      (d.digits ≠ 0 → (layout.numeral negative d).scale + k = d.exponent) := by
  have hne : Nat.toDigits 10 d.digits ≠ [] := Nat.toDigits_ne_nil
  unfold numeral
  dsimp only
  generalize hexponent : (if d.digits = 0 then (0 : Int) else _) = exponent
  have hplace (h : d.digits ≠ 0) :
      exponent - ((Nat.toDigits 10 d.digits).length - 1 : Nat) = d.exponent := by
    rw [← hexponent, if_neg h]
    omega
  split
  · obtain ⟨k, hvalue, hscale⟩ := exists_plain_shift hne exponent
    refine ⟨k, ?_, fun h => ?_⟩
    · rw [Numeral.significand, hvalue, digitsValue_toDigits]
    · rw [← hplace h, ← hscale, Numeral.scale, Numeral.exponentValue, Int.zero_sub]
  · refine ⟨0, ?_, fun h => ?_⟩
    · rw [Numeral.significand, List.take_append_drop, digitsValue_toDigits, Nat.pow_zero,
        Nat.mul_one]
    · rw [← hplace h, Numeral.scale, exponentValue_exponentPart hsign, List.length_drop]
      exact Int.add_zero _

theorem numeral_negative (negative : Bool) (d : Decimal) :
    (layout.numeral negative d).negative = negative := by
  simp only [numeral, apply_ite Numeral.negative, ite_self]

/-- The numeral of a finite number rounds to the number, whatever its layout. -/
theorem ofDecimal_ofBinary (hsign : layout.sign ≠ .minus) {F : BinaryFormat} {x : Binary F}
    (hfinite : x.isFinite = true) :
    Binary.ofDecimal (layout.ofBinary x).negative (layout.ofBinary x).significand
      (layout.ofBinary x).scale = x := by
  have hrank : x.rank < F.infinityRank := by simpa [Binary.isFinite] using hfinite
  have hnegative : (layout.ofBinary x).negative = x.negative := numeral_negative _ _
  have hnearest : F.nearestRankOfDecimal (layout.ofBinary x).significand
      (layout.ofBinary x).scale = x.rank := by
    have hshortest := BinaryFormat.nearestRankOfDecimal_shortest layout.tie hrank
    obtain ⟨k, hdigits, hscale⟩ :=
      exists_numeral_shift hsign x.negative (F.shortest layout.tie x.rank)
    rw [ofBinary, hdigits, BinaryFormat.nearestRankOfDecimal_shift]
    by_cases hzero : (F.shortest layout.tie x.rank).digits = 0
    · -- A decimal without digits is zero, whatever its exponent.
      rw [hzero, BinaryFormat.nearestRankOfDecimal_zero] at hshortest ⊢
      exact hshortest
    · rw [hscale hzero, hshortest]
  rw [Binary.ofDecimal, hnegative, hnearest, Binary.ofRank]
  cases x
  simp only [Binary.mk.injEq, true_and]
  exact Nat.min_eq_left (Nat.le_of_lt hrank)

end NumberLayout

/-! ## Texts -/

namespace Numeral

variable {n : Numeral}

/-- The text of a well spelled numeral spells it. -/
theorem WellSpelled.spellsNumeral (h : n.WellSpelled) : Literal.SpellsNumeral n.text n := by
  refine ⟨⟨fractionText n.fraction, exponentText n.exponent, ?_, ?_, ?_⟩, h.whole_digits,
    .inl h.whole_ne_nil⟩
  · have htext := n.text_append []
    rw [List.append_nil, List.append_nil] at htext
    rw [htext]
    cases n.negative with
    | true => exact .minus
    | false => exact .bare
  · unfold fractionText
    split
    · next hempty =>
      rw [List.isEmpty_iff.mp hempty]
      exact .missing
    · exact .point h.fraction_digits
  · cases he : n.exponent with
    | none => exact .missing
    | some e =>
      exact .marked (.inl rfl) ⟨h.exponent_ne_nil e he, h.exponent_digits e he⟩

theorem spellsInt_ofInt (i : Int) : Literal.SpellsInt (ofInt i).text i := by
  refine ⟨decide (i < 0), Nat.toDigits 10 i.natAbs, ?_,
    ⟨Nat.toDigits_ne_nil, fun _ => isDigit_of_mem_toDigits⟩, ?_⟩
  · by_cases h : i < 0
    · simp [ofInt, text, exponentText, h, Literal.Signed.minus]
    · simp [ofInt, text, exponentText, h, Literal.Signed.bare]
  · rw [digitsValue_toDigits]
    by_cases h : i < 0
    · simp only [h, decide_true, if_true]
      omega
    · simp only [h, decide_false, Bool.false_eq_true, if_false]
      omega

end Numeral

namespace Literal

/-- A finite number is read as it was written, whatever its layout. -/
theorem readBinary_text {layout : NumberLayout} (hsign : layout.sign ≠ .minus) {F : BinaryFormat}
    {x : Binary F} (hfinite : x.isFinite = true) :
    readBinary F (layout.ofBinary x).text = some x := by
  refine readBinary_eq_some_iff.mpr ⟨?_, hfinite⟩
  have hreads := Reads.decimal (F := F) (layout.wellSpelled_ofBinary x).spellsNumeral
  rwa [NumberLayout.ofDecimal_ofBinary hsign hfinite] at hreads

/-- An integer of 32 bits is read as it was written. -/
theorem readInt32_text (k : Int32) : readInt32 (Numeral.ofInt k.toInt).text = some k := by
  have hmin : -2 ^ 31 ≤ k.toInt := k.minValue_le_toInt
  have hmax : k.toInt ≤ 2 ^ 31 - 1 := k.toInt_le
  exact readInt32_eq_some_iff.mpr
    ⟨k.toInt, Numeral.spellsInt_ofInt _, hmin, hmax, (Int32.ofInt_toInt k).symm⟩

end Literal

end Metamodel
