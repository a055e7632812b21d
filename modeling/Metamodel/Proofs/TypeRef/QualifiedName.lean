import Mathlib.Data.List.Forall2
import Metamodel.Config.Basic
import Metamodel.Declaration.Basic
import Metamodel.Model.Attribute

/-!
# Classes by qualified name

One qualified name can be cut into package and name at any of its dots. What is asked of a class
does not depend on the cut, though classes that are cut differently are not equal.

* `simpleName_eq`: the innermost name of a class can be read off its qualified name.
* `matchesName_congr_iff`: configured names tell classes apart exactly by their qualified names.
* `SameClass`, `SameClass.token_eq`: types whose classes differ in the cut only have one token.
* `Mark.find?_sameName`: marks are found whatever the cut of their classes.
* `Config.isTextType_congr`, `Config.isNullableMarker_congr`: so are text types and nullable marks.
-/

namespace Metamodel

/-- What follows the last separator is not changed by what is put in front of a separator. -/
theorem Text.lastSegment_append_cons (sep : Char) (before cs : List Char) :
    lastSegment sep (before ++ sep :: cs) = lastSegment sep cs := by
  cases hs : splitLast sep cs with
  | none =>
    have hcut : splitLast sep (before ++ sep :: cs) = some (before, cs) :=
      splitLast_eq_some.mpr ⟨rfl, splitLast_eq_none.mp hs⟩
    simp [lastSegment, hs, hcut]
  | some cut =>
    obtain ⟨front, after⟩ := cut
    obtain ⟨rfl, hafter⟩ := splitLast_eq_some.mp hs
    have hcut : splitLast sep (before ++ sep :: (front ++ sep :: after)) =
        some (before ++ sep :: front, after) :=
      splitLast_eq_some.mpr ⟨by simp, hafter⟩
    simp [lastSegment, hs, hcut]

namespace ClassRef

variable {c d : ClassRef}

/-- The innermost name is the last segment of the qualified name. -/
theorem simpleName_eq (c : ClassRef) :
    c.simpleName = String.ofList (Text.lastSegment '.' c.qualifiedName.toList) := by
  unfold simpleName qualifiedName
  split
  · rfl
  · have hdot : (c.package ++ "." ++ c.name).toList =
        c.package.toList ++ '.' :: c.name.toList := by simp
    rw [hdot, Text.lastSegment_append_cons]

theorem simpleName_congr (h : c.qualifiedName = d.qualifiedName) : c.simpleName = d.simpleName := by
  rw [simpleName_eq, simpleName_eq, h]

theorem simpleName_of_no_dot (h : '.' ∉ c.qualifiedName.toList) :
    c.simpleName = c.qualifiedName := by
  simp [simpleName_eq, Text.lastSegment, Text.splitLast_eq_none.mpr h]

/-- Configured names tell two classes apart exactly if their qualified names differ. -/
theorem matchesName_congr_iff :
    (∀ configured, c.matchesName configured = d.matchesName configured) ↔
      c.qualifiedName = d.qualifiedName := by
  constructor
  · intro h
    have hc := h c.qualifiedName
    have hd := h d.qualifiedName
    unfold matchesName at hc hd
    -- A qualified name with a dot names its own class, and one without a dot is the innermost name.
    by_cases hdot : '.' ∈ c.qualifiedName.toList
    · simpa [hdot, eq_comm] using hc
    by_cases hdot' : '.' ∈ d.qualifiedName.toList
    · simpa [hdot'] using hd
    · simpa [hdot, simpleName_of_no_dot, hdot', eq_comm] using hc
  · intro h configured
    unfold matchesName
    rw [h, simpleName_congr h]

end ClassRef

namespace TypeRef

/-- Two types have classes of one qualified name at the same place: under equally many arrays, with
or without type arguments. -/
inductive SameClass : TypeRef → TypeRef → Prop
  | named {s t : TypeRef} {c d : ClassRef} (hs : s.class? = some c) (ht : t.class? = some d)
      (h : c.qualifiedName = d.qualifiedName) : SameClass s t
  | array {s t : TypeRef} (h : SameClass s t) : SameClass (.array s) (.array t)

theorem token_of_class? {t : TypeRef} {c : ClassRef} (h : t.class? = some c) :
    t.token = c.simpleName := by
  cases t <;> simp_all [class?, token]

namespace SameClass

variable {s t : TypeRef}

/-- Such types have one token. -/
theorem token_eq (h : SameClass s t) : s.token = t.token := by
  induction h with
  | named hs ht h => rw [token_of_class? hs, token_of_class? ht, ClassRef.simpleName_congr h]
  | array h ih => rw [token, token, ih]

theorem fieldNameFor_eq (h : SameClass s t) (name : String) :
    Attribute.fieldNameFor name s = Attribute.fieldNameFor name t := by
  rw [Attribute.fieldNameFor, Attribute.fieldNameFor, h.token_eq]

theorem primitive?_eq_none (h : SameClass s t) : t.primitive? = none := by
  cases h with
  | named hs ht h => cases t <;> simp_all [class?, primitive?]
  | array h => rfl

end SameClass

end TypeRef

/-! ## Marks -/

namespace Mark

/-- Two marks with the same members, whose classes have one qualified name. -/
structure SameName (mark other : Mark) : Prop where
  qualifiedName_eq : mark.type.qualifiedName = other.type.qualifiedName
  members_eq : mark.members = other.members

theorem isNamed_congr {mark other : Mark}
    (h : mark.type.qualifiedName = other.type.qualifiedName) :
    mark.isNamed = other.isNamed :=
  funext (ClassRef.matchesName_congr_iff.mpr h)

/-- Among marks that differ in the cut of their classes only, a configured name finds marks at the
same place. -/
theorem find?_sameName {marks others : List Mark} (h : List.Forall₂ SameName marks others)
    (configured : String) :
    Option.Rel SameName (marks.find? (·.isNamed configured))
      (others.find? (·.isNamed configured)) := by
  induction h with
  | nil => exact .none
  | @cons mark other marks others hmark _ ih =>
    rw [List.find?_cons, List.find?_cons, isNamed_congr hmark.qualifiedName_eq]
    cases other.isNamed configured with
    | true => exact .some hmark
    | false => exact ih

end Mark

/-! ## Configured names -/

namespace Config

variable {config : Config} {c d : ClassRef}

theorem isTextType_congr (h : c.qualifiedName = d.qualifiedName) :
    config.isTextType (.declared c) = config.isTextType (.declared d) := by
  have hmatches := funext (ClassRef.matchesName_congr_iff.mpr h)
  simp only [isTextType, hmatches]

theorem isNullableMarker_congr {mark other : Mark}
    (h : mark.type.qualifiedName = other.type.qualifiedName) :
    config.isNullableMarker mark = config.isNullableMarker other := by
  rw [isNullableMarker, isNullableMarker, Mark.isNamed_congr h]

end Config

end Metamodel
