import Metamodel.Proofs.Derivation.Default
import Metamodel.Proofs.Literal.ReadBack

/-!
# Default values, read back

The text of a default value is a literal of its type for the value itself: the letter behind a
floating point number is the one that is dropped. No literal has a blank in it, so blanks around the
text do not matter. A setter whose mark gives the text of a value has that value.

* `isLiteral_text`: the text of a value is a literal for it.
* `IsLiteral.isBlank_eq_false`: no literal has a blank in it.
* `resolveDefault_text`: the text of a value gives the value.
-/

namespace Metamodel

open Literal Text

/-! ## Characters of literals -/

namespace Literal

variable {cs rest : List Char}

theorem isBlank_of_isDigit {c : Char} (h : isDigit c = true) : isBlank c = false := by
  have h0 : '0'.toNat = 48 := rfl
  have h9 : '9'.toNat = 57 := rfl
  simp only [isDigit, Bool.and_eq_true, decide_eq_true_eq, h0, h9] at h
  simp [isBlank, blankRanges]
  omega

theorem isBlank_eq_false_of_any (h : cs.any isBlank = false) : ∀ c ∈ cs, isBlank c = false := by
  simpa using List.any_eq_false.mp h

theorem Signed.isBlank_eq_false {negative : Bool} (h : Signed negative cs rest)
    (hrest : ∀ c ∈ rest, isBlank c = false) : ∀ c ∈ cs, isBlank c = false := by
  cases h with
  | bare => exact hrest
  | plus => exact List.forall_mem_cons.mpr ⟨by decide, hrest⟩
  | minus => exact List.forall_mem_cons.mpr ⟨by decide, hrest⟩

theorem SpellsInt.isBlank_eq_false {n : Int} (h : SpellsInt cs n) :
    ∀ c ∈ cs, isBlank c = false := by
  obtain ⟨negative, ds, hsign, hds, -⟩ := h
  exact hsign.isBlank_eq_false fun c hc => isBlank_of_isDigit (hds.isDigit c hc)

theorem SpellsFraction.isBlank_eq_false {ds : List Char} (h : SpellsFraction cs ds) :
    ∀ c ∈ cs, isBlank c = false := by
  cases h with
  | missing => exact fun c hc => absurd hc List.not_mem_nil
  | point hds =>
    exact List.forall_mem_cons.mpr ⟨by decide, fun c hc => isBlank_of_isDigit (hds c hc)⟩

theorem SpellsExponent.isBlank_eq_false {exponent : Option (ExponentSign × List Char)}
    (h : SpellsExponent cs exponent) : ∀ c ∈ cs, isBlank c = false := by
  cases h with
  | missing => exact fun c hc => absurd hc List.not_mem_nil
  | @marked mark sign ds hmark hds =>
    have hsign : ∀ c ∈ sign.text, isBlank c = false :=
      isBlank_eq_false_of_any (by cases sign <;> decide)
    refine List.forall_mem_cons.mpr ⟨by rcases hmark with rfl | rfl <;> decide, ?_⟩
    exact List.forall_mem_append.mpr ⟨hsign, fun c hc => isBlank_of_isDigit (hds.isDigit c hc)⟩

theorem SpellsNumeral.isBlank_eq_false {n : Numeral} (h : SpellsNumeral cs n) :
    ∀ c ∈ cs, isBlank c = false := by
  obtain ⟨pointed, marked, hsign, hpointed, hmarked⟩ := h.text
  refine hsign.isBlank_eq_false (List.forall_mem_append.mpr ⟨?_, ?_⟩)
  · exact fun c hc => isBlank_of_isDigit (h.whole_digits c hc)
  · exact List.forall_mem_append.mpr ⟨hpointed.isBlank_eq_false, hmarked.isBlank_eq_false⟩

end Literal

namespace DefaultValue

variable {p : Primitive} {cs core : List Char} {v : DefaultValue}

theorem DropsLetter.isBlank_eq_false {lower upper : Char} (h : DropsLetter lower upper cs core)
    (hlower : isBlank lower = false) (hupper : isBlank upper = false)
    (hcore : ∀ c ∈ core, isBlank c = false) : ∀ c ∈ cs, isBlank c = false := by
  cases h with
  | dropped hletter =>
    intro d hd
    rcases List.mem_append.mp hd with hd | hd
    · exact hcore d hd
    · rw [List.mem_singleton.mp hd]
      rcases hletter with rfl | rfl
      · exact hlower
      · exact hupper
  | kept => exact hcore

/-- No literal has a blank in it. -/
theorem IsLiteral.isBlank_eq_false (h : IsLiteral p cs v) : ∀ c ∈ cs, isBlank c = false := by
  have hbinary {F : BinaryFormat} {x : Binary F} {cs : List Char}
      (hx : Reads F cs (.number x)) (hfinite : x.isFinite = true) :
      ∀ c ∈ cs, isBlank c = false := by
    obtain ⟨n, hn, -⟩ := Option.bind_eq_some_iff.mp (readBinary_eq_some_iff.mpr ⟨hx, hfinite⟩)
    exact (readNumeral_eq_some_iff.mp hn).isBlank_eq_false
  cases h with
  | int hn => exact hn.isBlank_eq_false
  | float hletter hx hfinite =>
    exact hletter.isBlank_eq_false (by decide) (by decide) (hbinary hx hfinite)
  | double hletter hx hfinite =>
    exact hletter.isBlank_eq_false (by decide) (by decide) (hbinary hx hfinite)
  | @boolean b => exact isBlank_eq_false_of_any (by cases b <;> decide)

/-- A literal with blanks around it is trimmed to the literal. -/
theorem IsLiteral.trims (h : IsLiteral p cs v) {before after : List Char}
    (hbefore : ∀ c ∈ before, isBlank c = true) (hafter : ∀ c ∈ after, isBlank c = true) :
    Trims (before ++ cs ++ after) cs where
  surrounded := ⟨before, after, hbefore, hafter, rfl⟩
  head_visible c hc := h.isBlank_eq_false c (List.mem_of_mem_head? hc)
  last_visible c hc := h.isBlank_eq_false c (List.mem_of_mem_getLast? hc)

/-! ## Texts -/

theorem toList_binaryText {F : BinaryFormat} {x : Binary F} (h : x.isFinite = true) :
    (binaryText x).toList = (sourceLayout.ofBinary x).text := by
  rw [binaryText, if_pos h, String.toList_ofList]

theorem reads_binaryText {F : BinaryFormat} {x : Binary F} (h : x.isFinite = true) :
    Reads F (binaryText x).toList (.number x) := by
  rw [toList_binaryText h]
  exact (readBinary_eq_some_iff.mp (readBinary_text (by decide) h)).1

/-- The text of a finite value is a literal of its type for the value itself. -/
theorem isLiteral_text (h : v.isFinite = true) : IsLiteral v.primitive v.text.toList v := by
  cases v with
  | int k =>
    rw [text, String.toList_ofList]
    exact ofLiteral?_eq_some_iff.mp (by rw [primitive, ofLiteral?, readInt32_text]; rfl)
  | float x =>
    rw [text, String.toList_append]
    exact .float (.dropped (.inl rfl)) (reads_binaryText h) h
  | double x =>
    rw [text, String.toList_append]
    exact .double (.dropped (.inl rfl)) (reads_binaryText h) h
  | boolean b => exact .boolean

end DefaultValue

open DefaultValue

/-- A property whose mark gives the text of a finite value of its type, with blanks around it, has
this value; zero keeps its sign. -/
theorem resolveDefault_text {config : Config} {d : Declaration} {v zero : DefaultValue}
    {key before after : String} (hfinite : v.isFinite = true)
    (hkind : (v.primitive, key, zero) ∈ kinds) (hbefore : isBlankText before = true)
    (hafter : isBlankText after = true)
    (hgiven : GivesDefault config d key (before ++ v.text ++ after)) :
    resolveDefault config d (.primitive v.primitive) = .ok (some v) := by
  have hliteral := isLiteral_text hfinite
  have htrims := hliteral.trims (List.all_eq_true.mp hbefore) (List.all_eq_true.mp hafter)
  rw [← String.toList_append, ← String.toList_append] at htrims
  exact ((resolves_of_mem_kinds config d hkind).literal_iff _ _ hgiven htrims v).mpr hliteral

/-- A setter of a floating point number, whose mark has members for two types. -/
def setWeight (raw : String) : Declaration :=
  ((Declaration.ofMethod ⟨"com.example.RowView"⟩ "setWeight"
      [⟨"weight", .primitive .float, []⟩]).marked (.ofName "androidx.annotation.Nullable")).marked
    (((Mark.ofName "com.airbnb.epoxy.ModelProp").withMember "doubleDefault" "1").withMember
      "floatDefault" raw)

/-- The negative zero and the least negative number, with blanks of several kinds around them. -/
theorem resolveDefault_text_least :
    resolveDefault .standard (setWeight "\u3000-0.0f\t") (.primitive .float) =
        .ok (some (.float (.ofRank true 0))) ∧
      resolveDefault .standard (setWeight " -1e-45f\n") (.primitive .float) =
        .ok (some (.float (.ofRank true 1))) := by
  have hzero : "\u3000-0.0f\t" = "\u3000" ++ (float (.ofRank true 0)).text ++ "\t" := by
    decide +kernel
  have hleast : " -1e-45f\n" = " " ++ (float (.ofRank true 1)).text ++ "\n" := by decide +kernel
  have hgiven (raw : String) : GivesDefault .standard (setWeight raw) "floatDefault" raw :=
    defaultText?_eq_some_iff.mp rfl
  have hkind : (.float, "floatDefault", .float .zero) ∈ kinds := by decide
  rw [hzero, hleast]
  exact ⟨resolveDefault_text (v := .float (.ofRank true 0)) rfl hkind (by decide) (by decide)
      (hgiven _),
    resolveDefault_text (v := .float (.ofRank true 1)) rfl hkind (by decide) (by decide)
      (hgiven _)⟩

end Metamodel
