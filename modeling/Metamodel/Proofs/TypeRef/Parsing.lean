import Metamodel.Proofs.TypeRef.QualifiedName

/-!
# Qualified names that are cut and joined again

Configured classes and ancestors are given as texts, which are cut at their last dot before anything
is asked of them. The empty package stands for a text without a dot and also for one that starts
with its only dot. The second one loses the dot when package and name are joined again, and every
other text comes back.

* `ClassRef.parse_eq_iff`: the texts that are cut into a class.
* `OnlyLeadingDot`, `ClassRef.qualifiedName_parse_eq_self_iff`: the texts that do not come back.
* `ClassRef.matchesName_parse_iff`: the texts of the classes that a name with a dot names.
* `Declaration.isSubtypeOf_iff`: the declarations that have a base with a dot.
* `parse_inverts_qualifiedName`: where cutting and joining are inverse, and what follows for bases.
-/

namespace Metamodel

/-- The text starts with a dot and has no other one. -/
def OnlyLeadingDot (text : String) : Prop :=
  ∃ name : String, text = "." ++ name ∧ '.' ∉ name.toList

namespace OnlyLeadingDot

/-- Nothing is in front of the last dot of such a text. -/
theorem iff_splitLast {text : String} :
    OnlyLeadingDot text ↔ Text.splitLast '.' text.toList = some ([], text.toList.tail) := by
  rw [Text.splitLast_eq_some]
  constructor
  · rintro ⟨name, rfl, hname⟩
    simpa using hname
  · rintro ⟨htext, hname⟩
    refine ⟨String.ofList text.toList.tail, String.toList_inj.mp ?_, by simpa using hname⟩
    simpa using htext

instance : DecidablePred OnlyLeadingDot := fun _ => decidable_of_iff' _ iff_splitLast

theorem dot_mem {text : String} (h : OnlyLeadingDot text) : '.' ∈ text.toList := by
  obtain ⟨name, rfl, -⟩ := h
  simp

end OnlyLeadingDot

namespace ClassRef

variable {c : ClassRef} {text base : String}

/-- A text is cut into a class whose name has no dot: the text is package and name, joined by a dot,
or it is the name alone and the package is empty. -/
theorem parse_eq_iff :
    parse text = c ↔ '.' ∉ c.name.toList ∧
      (text = c.package ++ "." ++ c.name ∨ text = c.name ∧ c.package = "") := by
  unfold parse
  constructor
  · rintro rfl
    cases hcut : Text.splitLast '.' text.toList with
    | none => exact ⟨Text.splitLast_eq_none.mp hcut, .inr ⟨rfl, rfl⟩⟩
    | some cut =>
      obtain ⟨htext, hname⟩ := Text.splitLast_eq_some.mp hcut
      exact ⟨by simpa using hname, .inl (String.toList_inj.mp (by simpa using htext))⟩
  · obtain ⟨package, name⟩ := c
    rintro ⟨hname, rfl | ⟨rfl, rfl⟩⟩
    · have hcut : Text.splitLast '.' (package ++ "." ++ name).toList =
          some (package.toList, name.toList) := Text.splitLast_eq_some.mpr ⟨by simp, hname⟩
      simp only [hcut, String.ofList_toList]
    · rw [Text.splitLast_eq_none.mpr hname]

theorem qualifiedName_of_package_empty (h : c.package = "") : c.qualifiedName = c.name := by
  simp [qualifiedName, h]

theorem qualifiedName_of_package_ne (h : c.package ≠ "") :
    c.qualifiedName = c.package ++ "." ++ c.name := by
  simp [qualifiedName, h]

/-- A class comes back from its qualified name exactly if its name has no dot: then the last dot is
the one between package and name. -/
theorem parse_qualifiedName_eq_self_iff : parse c.qualifiedName = c ↔ '.' ∉ c.name.toList := by
  rw [parse_eq_iff, and_iff_left_iff_imp]
  intro
  by_cases hpackage : c.package = ""
  · exact .inr ⟨qualifiedName_of_package_empty hpackage, hpackage⟩
  · exact .inl (qualifiedName_of_package_ne hpackage)

/-- The only dot of a text is lost if nothing is in front of it. -/
theorem dot_not_mem_qualifiedName_parse (h : OnlyLeadingDot text) :
    '.' ∉ (parse text).qualifiedName.toList := by
  obtain ⟨name, rfl, hname⟩ := h
  have hparse : parse ("." ++ name) = ⟨"", name⟩ := parse_eq_iff.mpr ⟨hname, .inl (by simp)⟩
  rwa [hparse, qualifiedName_of_package_empty rfl]

theorem qualifiedName_parse_of_not (h : ¬ OnlyLeadingDot text) :
    (parse text).qualifiedName = text := by
  obtain ⟨hname, htext⟩ := parse_eq_iff.mp (Eq.refl (parse text))
  generalize parse text = c at hname htext
  rcases htext with rfl | ⟨rfl, hpackage⟩
  · refine qualifiedName_of_package_ne fun hpackage => h ⟨c.name, ?_, hname⟩
    rw [hpackage, String.empty_append]
  · exact qualifiedName_of_package_empty hpackage

/-- A text comes back from its class exactly if it does not start with its only dot. -/
theorem qualifiedName_parse_eq_self_iff :
    (parse text).qualifiedName = text ↔ ¬ OnlyLeadingDot text := by
  refine ⟨fun heq h => ?_, qualifiedName_parse_of_not⟩
  have hdot := dot_not_mem_qualifiedName_parse h
  rw [heq] at hdot
  exact hdot h.dot_mem

theorem matchesName_iff_of_dot (h : '.' ∈ base.toList) :
    c.matchesName base = true ↔ c.qualifiedName = base := by
  simp [matchesName, h]

/-- A name with a dot names the class of the same text only, and not even that one if it starts with
its only dot. -/
theorem matchesName_parse_iff (hbase : '.' ∈ base.toList) :
    (parse text).matchesName base = true ↔ text = base ∧ ¬ OnlyLeadingDot base := by
  rw [matchesName_iff_of_dot hbase]
  constructor
  · intro h
    -- The dot of the base is still there when package and name are joined.
    have htext : ¬ OnlyLeadingDot text := fun hlost =>
      dot_not_mem_qualifiedName_parse hlost (h ▸ hbase)
    obtain rfl : text = base := (qualifiedName_parse_of_not htext).symm.trans h
    exact ⟨rfl, htext⟩
  · rintro ⟨rfl, htext⟩
    exact qualifiedName_parse_of_not htext

/-- A text names its own class exactly if it does not start with its only dot. -/
theorem matchesName_parse_self_iff :
    (parse text).matchesName text = true ↔ ¬ OnlyLeadingDot text := by
  by_cases hdot : '.' ∈ text.toList
  · rw [matchesName_parse_iff hdot, and_iff_right rfl]
  · have htext : ¬ OnlyLeadingDot text := fun h => hdot h.dot_mem
    have hname := qualifiedName_parse_of_not htext
    have hsimple : (parse text).simpleName = text :=
      (simpleName_of_no_dot (by rwa [hname])).trans hname
    simp [matchesName, hdot, htext, hsimple]

end ClassRef

namespace Declaration

variable {d : Declaration} {base : String}

/-- A base with a dot is the declaration itself, by its qualified name, or the text of one of its
ancestors. A base that starts with its only dot is never found among the ancestors. -/
theorem isSubtypeOf_iff (hbase : '.' ∈ base.toList) :
    d.isSubtypeOf base = true ↔
      d.classRef.qualifiedName = base ∨ base ∈ d.supertypes ∧ ¬ OnlyLeadingDot base := by
  rw [isSubtypeOf, Bool.or_eq_true, ClassRef.matchesName_iff_of_dot hbase, List.any_eq_true]
  refine or_congr_right ?_
  constructor
  · rintro ⟨text, hmem, htext⟩
    obtain ⟨rfl, hkept⟩ := (ClassRef.matchesName_parse_iff hbase).mp htext
    exact ⟨hmem, hkept⟩
  · rintro ⟨hmem, hkept⟩
    exact ⟨base, hmem, (ClassRef.matchesName_parse_iff hbase).mpr ⟨rfl, hkept⟩⟩

end Declaration

/-- A class comes back from its qualified name exactly if its name has no dot. A text comes back
from its class, and names it, exactly if it does not start with its only dot. So a declaration has a
base with a dot, not of that form, exactly if the base is its qualified name or is among its
ancestors as it is written, whatever the other ancestors are. A base of that form is not found
there. -/
theorem parse_inverts_qualifiedName :
    (∀ c : ClassRef, ClassRef.parse c.qualifiedName = c ↔ '.' ∉ c.name.toList) ∧
    (∀ text, (ClassRef.parse text).qualifiedName = text ↔ ¬ OnlyLeadingDot text) ∧
    (∀ text, (ClassRef.parse text).matchesName text = true ↔ ¬ OnlyLeadingDot text) ∧
    (∀ (d : Declaration) (base : String), '.' ∈ base.toList → ¬ OnlyLeadingDot base →
      (d.isSubtypeOf base = true ↔ d.classRef.qualifiedName = base ∨ base ∈ d.supertypes)) ∧
    ∀ (d : Declaration) (base : String), OnlyLeadingDot base →
      (d.isSubtypeOf base = true ↔ d.classRef.qualifiedName = base) := by
  refine ⟨fun c => ClassRef.parse_qualifiedName_eq_self_iff,
    fun text => ClassRef.qualifiedName_parse_eq_self_iff,
    fun text => ClassRef.matchesName_parse_self_iff, fun d base hdot hkept => ?_,
    fun d base hlost => ?_⟩
  · rw [Declaration.isSubtypeOf_iff hdot, and_iff_left hkept]
  · rw [Declaration.isSubtypeOf_iff hlost.dot_mem, or_iff_left fun h => h.2 hlost]

/-- A card with two ancestors, of which the second one has an empty package in front of its dot. -/
def plainCard : Declaration :=
  ((Declaration.ofClass "com.example" "CardView").extending "android.view.View").extending ".Plain"

/-- Of the two ancestors of a card, only the first one is a base of it. -/
theorem parse_inverts_qualifiedName_plainCard :
    ¬ OnlyLeadingDot "android.view.View" ∧ "android.view.View" ∈ plainCard.supertypes ∧
      plainCard.isSubtypeOf "android.view.View" = true ∧
      OnlyLeadingDot ".Plain" ∧ ".Plain" ∈ plainCard.supertypes ∧
      ¬ plainCard.isSubtypeOf ".Plain" = true := by
  obtain ⟨-, -, -, hkept, hlost⟩ := parse_inverts_qualifiedName
  have hview : "android.view.View" ∈ plainCard.supertypes := by decide
  exact ⟨by decide, hview, (hkept _ _ (by decide) (by decide)).mpr (.inr hview), by decide,
    by decide, mt (hlost _ _ (by decide)).mp (by decide)⟩

end Metamodel
