import Mathlib.Algebra.Group.Int.Defs
import Mathlib.Data.List.TakeWhile
import Metamodel.Literal
import Metamodel.Proofs.Json.Tokens

/-!
# Spellings of literals

Which texts are integers, decimals and floating point numbers, and what they stand for, said without
the readers. A text that a floating point number is read from may also be a word for infinity or for
no number at all; the reader of finite numbers refuses these words, as it refuses decimals that are
too great.

* `SpellsInt`, `SpellsNumeral`: the texts of integers and of decimals.
* `Reads`: the texts of floating point numbers, with words for infinity and for no number.
* `readInt_eq_some_iff`, `readInt32_eq_some_iff`, `readNumeral_eq_some_iff`,
  `readBinary_eq_some_iff`, `readBool_eq_some_iff`: the readers take these texts and no others.
-/

namespace Metamodel.Literal

variable {cs ds rest : List Char} {negative : Bool}

/-! ## Signs and digits -/

/-- One or more decimal digits. -/
structure Digits (ds : List Char) : Prop where
  ne_nil : ds ≠ []
  isDigit : ∀ c ∈ ds, isDigit c = true

/-- A text is the second one behind a sign, which may be missing if it is not a minus sign. -/
inductive Signed : Bool → List Char → List Char → Prop where
  | bare {cs : List Char} : Signed false cs cs
  | plus {cs : List Char} : Signed false ('+' :: cs) cs
  | minus {cs : List Char} : Signed true ('-' :: cs) cs

/-- The text does not start with a sign. -/
def Unsigned (cs : List Char) : Prop :=
  ∀ c ∈ cs.head?, c ≠ '+' ∧ c ≠ '-'

theorem signed_spanSign (cs : List Char) : Signed (spanSign cs).1 cs (spanSign cs).2 := by
  unfold spanSign
  split
  · exact .plus
  · exact .minus
  · exact .bare

theorem spanSign_of_unsigned (h : Unsigned cs) : spanSign cs = (false, cs) := by
  unfold spanSign
  split
  · exact absurd rfl (h _ rfl).1
  · exact absurd rfl (h _ rfl).2
  · rfl

/-- A sign is found in front of what has none. -/
theorem Signed.spanSign_eq (h : Signed negative cs rest) (hrest : Unsigned rest) :
    spanSign cs = (negative, rest) := by
  cases h with
  | bare => exact spanSign_of_unsigned hrest
  | plus => rfl
  | minus => rfl

theorem unsigned_of_isDigit {c : Char} (h : isDigit c = true) : Unsigned (c :: cs) := by
  rintro d ⟨⟩
  constructor <;> (rintro rfl; simp [Metamodel.isDigit] at h)

theorem Digits.unsigned (h : Digits ds) : Unsigned ds := by
  obtain ⟨c, ds, rfl⟩ := List.exists_cons_of_ne_nil h.ne_nil
  exact unsigned_of_isDigit (h.isDigit c List.mem_cons_self)

theorem digits_iff : Digits ds ↔ (ds.isEmpty || !ds.all Metamodel.isDigit) = false := by
  rw [Bool.or_eq_false_iff, Bool.not_eq_false', List.all_eq_true, List.isEmpty_eq_false_iff]
  exact ⟨fun h => ⟨h.ne_nil, h.isDigit⟩, fun h => ⟨h.1, h.2⟩⟩

/-! ## Integers -/

/-- A text spells an integer: digits behind a sign, which may be missing. -/
def SpellsInt (cs : List Char) (n : Int) : Prop :=
  ∃ negative ds, Signed negative cs ds ∧ Digits ds ∧
    n = if negative then -(digitsValue ds : Int) else digitsValue ds

theorem readInt_eq_some_iff {n : Int} : readInt cs = some n ↔ SpellsInt cs n := by
  unfold readInt
  constructor
  · intro h
    dsimp only at h
    split at h
    · cases h
    · next hds =>
      cases h
      exact ⟨_, _, signed_spanSign cs, digits_iff.mpr (Bool.eq_false_iff.mpr hds), rfl⟩
  · rintro ⟨negative, ds, hsign, hds, rfl⟩
    simp only [hsign.spanSign_eq hds.unsigned]
    rw [digits_iff.mp hds]
    rfl

/-- An integer of 32 bits is read from a text that spells an integer of the range. -/
theorem readInt32_eq_some_iff {k : Int32} :
    readInt32 cs = some k ↔
      ∃ n, SpellsInt cs n ∧ -2 ^ 31 ≤ n ∧ n ≤ 2 ^ 31 - 1 ∧ k = .ofInt n := by
  have hmin : Int32.minValue.toInt = -2 ^ 31 := rfl
  have hmax : Int32.maxValue.toInt = 2 ^ 31 - 1 := rfl
  simp only [readInt32, Option.bind_eq_some_iff, readInt_eq_some_iff, hmin, hmax]
  refine exists_congr fun n => and_congr_right fun _ => ?_
  split
  · next hrange => rw [Option.some_inj, eq_comm, ← and_assoc, and_iff_right hrange]
  · next hrange =>
    simp only [reduceCtorEq, false_iff]
    exact fun h => hrange ⟨h.1, h.2.1⟩

/-! ## Decimals -/

/-- The digits behind a point; the point may be missing if there are none. -/
inductive SpellsFraction : List Char → List Char → Prop where
  | missing : SpellsFraction [] []
  | point {ds : List Char} (hds : ∀ c ∈ ds, isDigit c = true) : SpellsFraction ('.' :: ds) ds

/-- The exponent behind its mark; there may be neither. -/
inductive SpellsExponent : List Char → Option (ExponentSign × List Char) → Prop where
  | missing : SpellsExponent [] none
  | marked {mark : Char} {sign : ExponentSign} {ds : List Char} (hmark : mark = 'e' ∨ mark = 'E')
      (hds : Digits ds) : SpellsExponent (mark :: (sign.text ++ ds)) (some (sign, ds))

/-- A text spells a decimal: behind a sign, which may be missing, at least one digit on either side
of the point, and the exponent. -/
structure SpellsNumeral (cs : List Char) (n : Numeral) : Prop where
  text : ∃ pointed marked, Signed n.negative cs (n.whole ++ (pointed ++ marked)) ∧
    SpellsFraction pointed n.fraction ∧ SpellsExponent marked n.exponent
  whole_digits : ∀ c ∈ n.whole, isDigit c = true
  some_digit : n.whole ≠ [] ∨ n.fraction ≠ []

/-- The digits at the front are digits, and what follows them has none at its front. -/
theorem spanDigits_eq (h : spanDigits cs = (ds, rest)) :
    cs = ds ++ rest ∧ (∀ c ∈ ds, isDigit c = true) ∧ StopsDigits rest := by
  cases h
  refine ⟨List.takeWhile_append_dropWhile.symm, fun c hc => List.mem_takeWhile_imp hc, ?_⟩
  intro c hc
  have h := List.head?_dropWhile_not isDigit cs
  rw [hc] at h
  exact h

theorem span_exponentSign_eq {sign : ExponentSign} (h : ExponentSign.span cs = (sign, rest)) :
    cs = sign.text ++ rest := by
  unfold ExponentSign.span at h
  split at h <;> cases h <;> rfl

theorem spanExponent_eq_some_iff {exponent : Option (ExponentSign × List Char)} :
    Numeral.spanExponent cs = some (exponent, []) ↔ SpellsExponent cs exponent := by
  constructor
  · intro h
    unfold Numeral.spanExponent at h
    split at h
    · next c cs =>
      split at h
      · next hmark =>
        rcases hsign : ExponentSign.span cs with ⟨sign, rest⟩
        rcases hspan : spanDigits rest with ⟨ds, after⟩
        simp only [hsign, hspan] at h
        split at h
        · cases h
        · next hne =>
          cases h
          obtain ⟨hrest, hds, -⟩ := spanDigits_eq hspan
          rw [span_exponentSign_eq hsign, hrest, List.append_nil]
          exact .marked hmark ⟨by simpa using hne, hds⟩
      · cases h
    · cases h
      exact .missing
  · intro h
    cases h with
    | missing => rfl
    | @marked mark sign ds hmark hds =>
      have hspan : ExponentSign.span (sign.text ++ (ds ++ [])) = (sign, ds ++ []) :=
        Numeral.span_exponentSign sign hds.ne_nil hds.isDigit
      have hdigits : spanDigits (ds ++ []) = (ds, []) :=
        spanDigits_append hds.isDigit (by rintro c ⟨⟩)
      rw [List.append_nil] at hspan hdigits
      simp [Numeral.spanExponent, hmark, hspan, hdigits, hds.ne_nil]

theorem SpellsExponent.head {exponent : Option (ExponentSign × List Char)}
    (h : SpellsExponent cs exponent) : ∀ c ∈ cs.head?, isDigit c = false ∧ c ≠ '.' := by
  cases h with
  | missing => rintro c ⟨⟩
  | marked hmark =>
    rintro c ⟨⟩
    rcases hmark with rfl | rfl <;> exact ⟨rfl, by decide⟩

/-- The digits behind a point at the front, and what follows them. -/
def spanFraction : List Char → List Char × List Char
  | '.' :: rest => spanDigits rest
  | cs => ([], cs)

theorem spanFraction_of_missing (h : ∀ rest, cs ≠ '.' :: rest) : spanFraction cs = ([], cs) := by
  unfold spanFraction
  split
  · exact absurd rfl (h _)
  · rfl

theorem readNumeral_eq (cs : List Char) :
    readNumeral cs =
      (let (negative, rest) := spanSign cs
      let (whole, rest) := spanDigits rest
      let (fraction, rest) := spanFraction rest
      if whole.isEmpty && fraction.isEmpty then none
      else
        match Numeral.spanExponent rest with
        | some (exponent, []) => some ⟨negative, whole, fraction, exponent⟩
        | _ => none) := by
  unfold readNumeral
  dsimp only
  generalize (spanDigits (spanSign cs).2).2 = behind
  split
  · rfl
  · next hmissing =>
    exact spanFraction_of_missing hmissing ▸ rfl

theorem spanFraction_eq {fraction : List Char} (h : spanFraction cs = (fraction, rest)) :
    ∃ pointed, cs = pointed ++ rest ∧ SpellsFraction pointed fraction := by
  unfold spanFraction at h
  split at h
  · obtain ⟨rfl, hds, -⟩ := spanDigits_eq h
    exact ⟨'.' :: fraction, rfl, .point hds⟩
  · cases h
    exact ⟨[], rfl, .missing⟩

theorem SpellsFraction.spanFraction_eq {pointed fraction : List Char}
    (h : SpellsFraction pointed fraction) (hrest : ∀ c ∈ rest.head?, isDigit c = false ∧ c ≠ '.') :
    spanFraction (pointed ++ rest) = (fraction, rest) := by
  cases h with
  | missing =>
    refine spanFraction_of_missing fun behind hpoint => ?_
    subst hpoint
    exact absurd rfl (hrest _ rfl).2
  | point hds => exact spanDigits_append hds fun c hc => (hrest c hc).1

/-- Behind the digits before the point there is no further digit. -/
theorem SpellsFraction.stopsDigits {pointed fraction : List Char}
    (h : SpellsFraction pointed fraction) (hrest : ∀ c ∈ rest.head?, isDigit c = false ∧ c ≠ '.') :
    StopsDigits (pointed ++ rest) := by
  cases h with
  | missing => exact fun c hc => (hrest c hc).1
  | point => rintro c ⟨⟩; rfl

/-- A decimal without its sign starts with a digit or a point. -/
theorem unsigned_decimal {whole pointed fraction : List Char}
    (hwhole : ∀ c ∈ whole, isDigit c = true) (hsome : whole ≠ [] ∨ fraction ≠ [])
    (h : SpellsFraction pointed fraction) : Unsigned (whole ++ (pointed ++ rest)) := by
  cases whole with
  | cons c whole => exact unsigned_of_isDigit (hwhole c List.mem_cons_self)
  | nil =>
    cases h with
    | missing => exact absurd rfl (hsome.resolve_left (by simp))
    | point => rintro c ⟨⟩; decide

theorem readNumeral_eq_some_iff {n : Numeral} : readNumeral cs = some n ↔ SpellsNumeral cs n := by
  rw [readNumeral_eq]
  constructor
  · intro h
    have hsign := signed_spanSign cs
    rcases hspan : spanSign cs with ⟨negative, text⟩
    rw [hspan] at h hsign
    rcases hwhole : spanDigits text with ⟨whole, behind⟩
    rcases hfraction : spanFraction behind with ⟨fraction, marked⟩
    simp only [hwhole, hfraction] at h
    obtain ⟨rfl, hdigits, -⟩ := spanDigits_eq hwhole
    obtain ⟨pointed, rfl, hpointed⟩ := spanFraction_eq hfraction
    split at h
    · cases h
    · next hsome =>
      split at h
      · next exponent hexponent =>
        cases h
        exact ⟨⟨pointed, marked, hsign, hpointed, spanExponent_eq_some_iff.mp hexponent⟩, hdigits,
          by simpa [Classical.or_iff_not_imp_left] using hsome⟩
      · cases h
  · intro h
    obtain ⟨pointed, marked, hsign, hpointed, hmarked⟩ := h.text
    have hbehind := hpointed.stopsDigits hmarked.head
    have hsome : (n.whole.isEmpty && n.fraction.isEmpty) = false := by
      simpa [Classical.or_iff_not_imp_left] using h.some_digit
    simp [hsign.spanSign_eq (unsigned_decimal h.whole_digits h.some_digit hpointed),
      spanDigits_append h.whole_digits hbehind,
      hpointed.spanFraction_eq hmarked.head, spanExponent_eq_some_iff.mpr hmarked, hsome]

/-! ## Floating point numbers -/

/-- What a text is read as where numbers of a format are asked for. -/
inductive Reading (F : BinaryFormat) where
  /-- A number, which may be infinite. -/
  | number (x : Binary F)
  /-- Not a number. -/
  | nan

/-- The texts that are read where numbers of a format are asked for: a decimal stands for the
nearest number, and three words, in any case, for infinity and for what is not a number. -/
inductive Reads (F : BinaryFormat) (cs : List Char) : Reading F → Prop where
  | decimal {n : Numeral} (hn : SpellsNumeral cs n) :
      Reads F cs (.number (.ofDecimal n.negative n.significand n.scale))
  | infinity {negative : Bool} {word : List Char} (hsign : Signed negative cs word)
      (hword : word.map Char.toLower ∈ ["inf".toList, "infinity".toList]) :
      Reads F cs (.number (.ofRank negative F.infinityRank))
  | nan {negative : Bool} {word : List Char} (hsign : Signed negative cs word)
      (hword : word.map Char.toLower = "nan".toList) : Reads F cs .nan

/-- A finite number is read from a text exactly if the text is read as this number. -/
theorem readBinary_eq_some_iff {F : BinaryFormat} {x : Binary F} :
    readBinary F cs = some x ↔ Reads F cs (.number x) ∧ x.isFinite = true := by
  simp only [readBinary, Option.bind_eq_some_iff, readNumeral_eq_some_iff]
  constructor
  · rintro ⟨n, hn, hx⟩
    split at hx
    · next hfinite =>
      cases hx
      exact ⟨.decimal hn, hfinite⟩
    · cases hx
  · rintro ⟨hreads, hfinite⟩
    cases hreads with
    | decimal hn => exact ⟨_, hn, if_pos hfinite⟩
    | infinity => simp [Binary.ofRank, Binary.isFinite] at hfinite

/-! ## Truth values -/

theorem readBool_eq_some_iff {b : Bool} :
    readBool cs = some b ↔ cs = (if b then "true" else "false").toList := by
  unfold readBool
  split
  · next h => cases b <;> simp [h]
  split
  · next h => cases b <;> simp [h]
  · next ht hf => cases b <;> simpa

end Metamodel.Literal
