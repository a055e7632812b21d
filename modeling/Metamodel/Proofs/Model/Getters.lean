import Mathlib.Data.List.Nodup
import Metamodel.Proofs.Model.Fields

/-!
# The getters of overloads

The getter of an overload has the token of its type behind the name, to tell it from the getter of
the attribute that the overload is derived from. Names of other attributes are not looked at, so
one that was declared with the token behind the name has the same getter.

* `OverloadsTyped`: all overloads of a model have the type of overloads.
* `getterName_eq_iff`: which attributes have the getter of an overload.
* `overloadGettersDistinct_iff`: when the getters of overloads differ from all others.
-/

namespace Metamodel

namespace Model

/-- The getter of an overload is that of no other attribute. -/
def OverloadGettersDistinct (m : Model) : Prop :=
  ∀ o ∈ m.attributes, o.isOverload = true → ∀ a ∈ m.attributes, a ≠ o →
    a.getterName ≠ o.getterName

/-- Every overload has the type of overloads. -/
def OverloadsTyped (m : Model) : Prop :=
  ∀ o ∈ m.attributes, o.isOverload = true → o.type = resourceType

variable {m : Model} {o a : Attribute}

/-! ## The type of overloads -/

namespace OverloadsTyped

/-- What is attached is no overload. -/
theorem attachOrKeep (h : m.OverloadsTyped) (config : Config) (p : Declaration) :
    (m.attachOrKeep config p).OverloadsTyped := by
  cases ha : m.attachment config p with
  | error rejection => rwa [attachOrKeep_of_error ha]
  | ok a =>
    rw [attachOrKeep_of_ok ha]
    intro o ho hover
    rcases List.mem_append.mp ho with ho | ho
    · exact h o ho hover
    · have hdeclared := Attribute.isOverload_ofSetter (attachment_eq_ok.mp ha).1
      rw [List.mem_singleton.mp ho, hdeclared] at hover
      cases hover

/-- What is derived has the type of overloads. -/
theorem synthesize (h : m.OverloadsTyped) (config : Config) :
    (m.synthesize config).OverloadsTyped := by
  intro o ho hover
  rw [synthesize_attributes, overloads_eq] at ho
  rcases List.mem_append.mp ho with ho | ho
  · exact h o ho hover
  · obtain ⟨a, -, rfl⟩ := List.mem_map.mp ho
    exact Attribute.overload_type config a

theorem edit (h : m.OverloadsTyped) (e : Edit) : (m.edit e).OverloadsTyped := by
  cases e with
  | attach config p => exact h.attachOrKeep config p
  | synthesize config => exact h.synthesize config

theorem editAll (h : m.OverloadsTyped) (edits : List Edit) : (m.editAll edits).OverloadsTyped :=
  editAll_of_edit (fun _ e h => h.edit e) h edits

end OverloadsTyped

/-! ## Getters -/

/-- An attribute has the getter of an overload exactly if it was declared under the name of the
overload with the token behind. Another overload has another name, since it has the same type. -/
theorem getterName_eq_iff (hnamed : m.WellNamed) (htyped : m.OverloadsTyped)
    (ho : o ∈ m.attributes) (hover : o.isOverload = true) (ha : a ∈ m.attributes) (hne : a ≠ o) :
    a.getterName = o.getterName ↔
      a.isOverload = false ∧ a.name = o.name ++ resourceType.token := by
  have hgetter : o.getterName = o.name ++ resourceType.token := by
    simp [Attribute.getterName, hover, htyped o ho hover]
  rw [hgetter]
  cases hkind : a.isOverload with
  | false => simp [Attribute.getterName, hkind]
  | true =>
    have hother : a.getterName = a.name ++ resourceType.token := by
      simp [Attribute.getterName, hkind, htyped a ha hkind]
    simp only [Bool.true_eq_false, false_and, iff_false]
    intro he
    rw [hother] at he
    have hkey : (a.name, a.type) = (o.name, o.type) := by
      rw [(String.append_left_inj _).mp he, htyped a ha hkind, htyped o ho hover]
    exact hne (List.inj_on_of_nodup_map hnamed.keys_nodup ha ho hkey)

/-- The getters of overloads differ from all others exactly if nothing was declared under the name
of an overload with the token behind. -/
theorem overloadGettersDistinct_iff (hnamed : m.WellNamed) (htyped : m.OverloadsTyped) :
    m.OverloadGettersDistinct ↔ ∀ o ∈ m.attributes, o.isOverload = true →
      ∀ a ∈ m.attributes, a.isOverload = false → a.name ≠ o.name ++ resourceType.token := by
  constructor
  · intro h o ho hover a ha hdeclared hname
    have hne : a ≠ o := fun he => by simp [he, hover] at hdeclared
    exact h o ho hover a ha hne
      ((getterName_eq_iff hnamed htyped ho hover ha hne).mpr ⟨hdeclared, hname⟩)
  · intro h o ho hover a ha hne he
    obtain ⟨hdeclared, hname⟩ := (getterName_eq_iff hnamed htyped ho hover ha hne).mp he
    exact h o ho hover a ha hdeclared hname

end Model

/-! ## Rounds -/

namespace Round

theorem localModel_overloadsTyped (config : Config) (input : Candidates) (d : Declaration) :
    (localModel config input d).OverloadsTyped := by
  obtain ⟨edits, he⟩ := localModel_attributes config input d
  have hnone : (Model.ofComponent config d).OverloadsTyped :=
    fun o ho => absurd ho List.not_mem_nil
  intro o ho hover
  rw [he] at ho
  exact hnone.editAll edits o ho hover

/-- In a model of a round, an attribute has the getter of an overload exactly if it was declared
under the name of the overload with `Int` behind. So the getters of overloads differ from all
others exactly if there is no such attribute. -/
theorem overload_getters_distinct {σ : Type} {config : Config} {emitter : Emitter σ} {s : σ}
    {input : Candidates} {m : Model} (hm : m ∈ (run config emitter s input).1.models) :
    (∀ o ∈ m.attributes, o.isOverload = true → ∀ a ∈ m.attributes, a ≠ o →
      (a.getterName = o.getterName ↔ a.isOverload = false ∧ a.name = o.name ++ "Int")) ∧
    (m.OverloadGettersDistinct ↔ ∀ o ∈ m.attributes, o.isOverload = true →
      ∀ a ∈ m.attributes, a.isOverload = false → a.name ≠ o.name ++ "Int") := by
  obtain ⟨d, -, rfl⟩ := mem_run_models hm
  have hnamed := localModel_wellNamed config input d
  have htyped := localModel_overloadsTyped config input d
  exact ⟨fun o ho hover a ha hne => Model.getterName_eq_iff hnamed htyped ho hover ha hne,
    Model.overloadGettersDistinct_iff hnamed htyped⟩

theorem overload_getters_distinct_int_token :
    ∃ m ∈ (run .standard .null () intTokenRound).1.models,
      m.attributes.any (·.isOverload) = true ∧ m.OverloadGettersDistinct := by
  have h : ∃ m ∈ (run .standard .null () intTokenRound).1.models,
      m.attributes.any (·.isOverload) = true ∧ ∀ o ∈ m.attributes, o.isOverload = true →
        ∀ a ∈ m.attributes, a.isOverload = false → a.name ≠ o.name ++ "Int" := by
    decide +kernel
  obtain ⟨m, hm, hover, hnone⟩ := h
  exact ⟨m, hm, hover, (overload_getters_distinct hm).2.mpr hnone⟩

/-- A card with a title that is a text, and a property that is declared under the name of the getter
of its overload. -/
def titleIntRound : Candidates where
  components := [(Declaration.ofClass "com.example" "CardView").extending "android.view.View"]
  properties :=
    [("setTitle", "java.lang.CharSequence"), ("setTitleInt", "java.lang.Integer")].map
      fun (method, type) =>
        .ofMethod ⟨"com.example.CardView"⟩ method [⟨"value", .ofName type, []⟩]
  resets := []

/-- Nothing is given up in this round, and the overload of the title has the getter `titleInt`, as
the other property has. -/
theorem titleInt_getters_clash :
    (process .standard titleIntRound).diagnostics = [] ∧
      ∃ m ∈ (process .standard titleIntRound).models, ∃ o ∈ m.attributes, o.isOverload = true ∧
        ∃ a ∈ m.attributes, a ≠ o ∧ a.getterName = "titleInt" ∧ o.getterName = "titleInt" := by
  decide +kernel

end Round

end Metamodel
