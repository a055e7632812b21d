import Metamodel.Binary.Layout
import Metamodel.Json.Number
import Metamodel.Proofs.Json.Tokens

/-!
# Numbers that are written

Integers and binary numbers are written as well spelled numerals, and an integer of 32 bits is read
as it was written.

* `digitsValue_toDigits`: the digits of a natural number spell it.
* `Numeral.wellSpelled_ofInt`, `NumberLayout.wellSpelled_ofBinary`: numerals are well spelled.
* `Json.int32?_ofInt`: an integer of 32 bits is read as it was written.
-/

namespace Metamodel

/-! ## Digits of natural numbers -/

theorem isDigit_eq (c : Char) : isDigit c = c.isDigit := rfl

/-- The digits of a natural number spell it. -/
theorem digitsValue_toDigits (n : Nat) : digitsValue (Nat.toDigits 10 n) = n := by
  have h : digitsValue (Nat.toDigits 10 n) = Nat.ofDigitChars 10 (Nat.toDigits 10 n) 0 := by
    rw [Nat.ofDigitChars_eq_foldl]
    rfl
  rw [h, Nat.ofDigitChars_ten_toDigits]

theorem isDigit_of_mem_toDigits {n : Nat} {c : Char} (h : c ∈ Nat.toDigits 10 n) :
    isDigit c = true := by
  rw [isDigit_eq]
  exact Nat.isDigit_of_mem_toDigits (by decide) (by decide) h

/-- Only zero starts with a zero. -/
theorem head?_toDigits {n : Nat} (h : 0 < n) : (Nat.toDigits 10 n).head? ≠ some '0' := by
  induction n using Nat.strongRecOn with
  | _ n ih =>
    by_cases hn : n < 10
    · rw [Nat.toDigits_of_lt_base hn, List.head?_cons]
      simpa using Nat.ne_of_gt h
    · obtain ⟨c, cs, hcs⟩ := List.exists_cons_of_ne_nil (@Nat.toDigits_ne_nil (n / 10) 10)
      have hhead := ih (n / 10) (by omega) (by omega)
      rw [hcs] at hhead
      rw [Nat.toDigits_of_base_le (by decide) (by omega), hcs]
      exact hhead

/-! ## Numerals -/

namespace Numeral

/-- The digits of a natural number have no zero that could be left out. -/
theorem toDigits_leading (n : Nat) (h : (Nat.toDigits 10 n).head? = some '0') :
    Nat.toDigits 10 n = ['0'] := by
  cases n with
  | zero => rfl
  | succ n => exact absurd h (head?_toDigits (Nat.succ_pos n))

theorem wellSpelled_ofInt (i : Int) : (ofInt i).WellSpelled where
  whole_ne_nil := Nat.toDigits_ne_nil
  whole_digits _ := isDigit_of_mem_toDigits
  whole_leading := toDigits_leading i.natAbs
  fraction_digits _ h := absurd h List.not_mem_nil
  exponent_ne_nil := by simp [ofInt]
  exponent_digits := by simp [ofInt]

end Numeral

namespace NumberLayout

variable (layout : NumberLayout)

theorem mem_replicate_isDigit {n : Nat} {c : Char} (h : c ∈ List.replicate n '0') :
    isDigit c = true := by
  rw [(List.mem_replicate.mp h).2]
  rfl

section

variable {ds : List Char} (hds : ∀ c ∈ ds, isDigit c = true) (exponent : Int)

include hds

theorem isDigit_of_mem_plainWhole : ∀ c ∈ plainWhole ds exponent, isDigit c = true := by
  unfold plainWhole
  split
  · simp [isDigit]
  · intro c hc
    rcases List.mem_append.mp hc with hc | hc
    · exact hds c (List.mem_of_mem_take hc)
    · exact mem_replicate_isDigit hc

theorem isDigit_of_mem_plainFraction : ∀ c ∈ plainFraction ds exponent, isDigit c = true := by
  unfold plainFraction
  split
  · intro c hc
    rcases List.mem_append.mp hc with hc | hc
    · exact mem_replicate_isDigit hc
    · exact hds c hc
  split
  · simp [isDigit]
  · exact fun c hc => hds c (List.mem_of_mem_drop hc)

end

/-- The digits before the point start as all digits do, unless the point comes first. -/
theorem head?_plainWhole {ds : List Char} (hne : ds ≠ []) {exponent : Int} (h : 0 ≤ exponent) :
    (plainWhole ds exponent).head? = ds.head? := by
  obtain ⟨c, ds, rfl⟩ := List.exists_cons_of_ne_nil hne
  simp [plainWhole, Int.not_lt.mpr h]

theorem plainWhole_ne_nil {ds : List Char} (hne : ds ≠ []) (exponent : Int) :
    plainWhole ds exponent ≠ [] := by
  by_cases h : exponent < 0
  · simp [plainWhole, h]
  · intro hnil
    have hhead := head?_plainWhole hne (Int.not_lt.mp h)
    rw [hnil, List.head?_nil, eq_comm, List.head?_eq_none_iff] at hhead
    exact hne hhead

/-- A zero before the point stands alone. -/
theorem plainWhole_leading (d : Decimal) {exponent : Int} (hzero : d.digits = 0 → exponent = 0)
    (h : (plainWhole (Nat.toDigits 10 d.digits) exponent).head? = some '0') :
    plainWhole (Nat.toDigits 10 d.digits) exponent = ['0'] := by
  by_cases hexponent : exponent < 0
  · simp [plainWhole, hexponent]
  · rw [head?_plainWhole Nat.toDigits_ne_nil (Int.not_lt.mp hexponent)] at h
    have hdigits : d.digits = 0 := Nat.eq_zero_of_not_pos fun hpos => head?_toDigits hpos h
    rw [hdigits, hzero hdigits]
    rfl

/-- The numeral of a decimal is well spelled. -/
theorem wellSpelled_numeral (negative : Bool) (d : Decimal) :
    (layout.numeral negative d).WellSpelled := by
  have hne : Nat.toDigits 10 d.digits ≠ [] := Nat.toDigits_ne_nil
  have hds : ∀ c ∈ Nat.toDigits 10 d.digits, isDigit c = true := fun _ => isDigit_of_mem_toDigits
  unfold numeral
  dsimp only
  generalize hexponent : (if d.digits = 0 then (0 : Int) else _) = exponent
  have hzero : d.digits = 0 → exponent = 0 := fun h => by rw [← hexponent, if_pos h]
  split
  · exact {
      whole_ne_nil := plainWhole_ne_nil hne _
      whole_digits := isDigit_of_mem_plainWhole hds _
      whole_leading := plainWhole_leading d hzero
      fraction_digits := isDigit_of_mem_plainFraction hds _
      exponent_ne_nil := by simp
      exponent_digits := by simp }
  · exact {
      whole_ne_nil := by simp
      whole_digits := fun c hc => hds c (List.mem_of_mem_take hc)
      whole_leading := fun h => by
        rw [List.head?_take, if_neg Nat.one_ne_zero] at h
        rw [Numeral.toDigits_leading _ h]
        rfl
      fraction_digits := fun c hc => hds c (List.mem_of_mem_drop hc)
      exponent_ne_nil := by
        rintro e ⟨⟩
        exact Nat.toDigits_ne_nil
      exponent_digits := by
        rintro e ⟨⟩ c hc
        exact isDigit_of_mem_toDigits hc }

theorem wellSpelled_ofBinary {F : BinaryFormat} (x : Binary F) : (layout.ofBinary x).WellSpelled :=
  layout.wellSpelled_numeral _ _

end NumberLayout

/-! ## Integers -/

namespace Json

/-- An integer is read as it was written if it fits in 64 bits. -/
theorem integer?_ofInt {i : Int} (hmin : -(UInt64.size / 2 : Nat) ≤ i) (hmax : i < UInt64.size) :
    integer? (.ofInt i) = some i := by
  unfold integer?
  simp only [Numeral.ofInt, Numeral.isWhole, digitsValue_toDigits]
  by_cases hneg : i < 0
  · rw [if_neg (by simp), if_pos (by simpa using hneg), if_pos (by omega)]
    congr 1
    omega
  · rw [if_neg (by simp), if_neg (by simpa using hneg), if_pos (by omega)]
    congr 1
    omega

/-- An integer of 32 bits is read as it was written. -/
theorem int32?_ofInt (n : Int32) : int32? (.ofInt n.toInt) = some n := by
  have hmin : -2147483648 ≤ n.toInt := n.minValue_le_toInt
  have hmax : n.toInt ≤ 2147483647 := n.toInt_le
  have hinteger : integer? (.ofInt n.toInt) = some n.toInt :=
    integer?_ofInt (by simp [UInt64.size]; omega) (by simp [UInt64.size]; omega)
  rw [int32?, hinteger, Option.bind_some, if_pos ⟨n.minValue_le_toInt, n.toInt_le⟩,
    Int32.ofInt_toInt]

end Json

end Metamodel
