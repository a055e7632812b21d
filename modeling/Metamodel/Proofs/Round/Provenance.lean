import Mathlib.Data.List.Forall2
import Mathlib.Data.List.Nodup
import Metamodel.Proofs.Model.Fields
import Metamodel.Proofs.Round.Accounting

/-!
# Where attributes come from

Each attribute in a model of a round leads back to what it was made from: a declared one to a
property setter among the candidates, and an overload, by the field that it names, to a declared one
in the same model. Nothing checks these links when a model is handed over; they hold since fields
are unique and since at most one attribute of a name gets an overload.

* `Declares`: what a declared attribute has from its property setter.
* `DerivesFrom`: what an overload has from the attribute that it is derived from.
* `WellNamed.filter_fieldName_eq`: a field leads to one attribute.
* `forall₂_declares`: the property setters that the declared attributes of a component come from.
* `attributes_traced`: all attributes of a model lead back, each to another origin.
-/

namespace Metamodel

namespace Attribute

/-- The field of the attribute that an overload is derived from. -/
def sourceField? (a : Attribute) : Option String :=
  match a.provenance with
  | .declared _ => none
  | .overload field => some field

@[simp] theorem sourceField?_overload (config : Config) (a : Attribute) :
    (a.overload config).sourceField? = some a.fieldName := rfl

/-- An overload of the attribute, which is declared and of a text type. It has the name, the setter
and the flag of that attribute, and names its field. -/
structure DerivesFrom (config : Config) (o a : Attribute) : Prop where
  sourceField : o.sourceField? = some a.fieldName
  type : o.type = .primitive .int
  name : o.name = a.name
  originSetter : o.originSetter = a.originSetter
  optional : o.flags.optional = a.flags.optional
  isDeclared : a.isOverload = false
  isText : config.isTextType a.type = true

theorem overload_derivesFrom {config : Config} {a : Attribute} (hdeclared : a.isOverload = false)
    (htext : config.isTextType a.type = true) : (a.overload config).DerivesFrom config a :=
  ⟨rfl, rfl, rfl, rfl, rfl, hdeclared, htext⟩

end Attribute

/-- The method is a property setter of the component with one parameter, and the attribute has its
name, type, marks and flag from the method and this parameter. -/
structure Declaration.Declares (config : Config) (component : DeclId) (p : Declaration)
    (a : Attribute) : Prop where
  enclosing : p.enclosing = some component
  name : a.name = attributeName p.name
  originSetter : a.originSetter = p.name
  parameter : ∃ parameter, p.parameters = [parameter] ∧
    a.provenance = .declared parameter.name ∧ a.type = parameter.type ∧
    a.getterMarks = parameter.marks ∧ a.setterMarks = parameter.marks ∧
    a.flags.optional = parameter.marks.any config.isNullableMarker

namespace Model

variable {config : Config} {m : Model} {seen : List String} {a : Attribute}

/-- The search for overloads keeps attributes in order. -/
theorem overloadSources_sublist (config : Config) (m : Model) (seen : List String)
    (rest : List Attribute) : (m.overloadSources config seen rest).Sublist rest := by
  induction rest generalizing seen with
  | nil => exact .refl _
  | cons a rest ih =>
    rw [overloadSources]
    split
    · exact (ih _).cons_cons a
    · exact (ih _).cons a

theorem names_overloads_nodup (config : Config) (m : Model) :
    ((m.overloads config).map (·.name)).Nodup := by
  rw [overloads_eq, List.map_map]
  exact names_overloadSources_nodup config m [] m.attributes

/-- If fields are unique, no two overloads are derived from one attribute. -/
theorem sourceFields_overloads_nodup (config : Config) (h : m.fieldNames.Nodup) :
    ((m.overloads config).map (·.sourceField?)).Nodup := by
  have hsources : ((m.overloadSources config [] m.attributes).map (·.fieldName)).Nodup :=
    h.sublist ((overloadSources_sublist config m [] m.attributes).map _)
  have hfields := hsources.map fun _ _ => Option.some.inj
  rw [List.map_map] at hfields
  rw [overloads_eq, List.map_map]
  exact hfields

/-- A field leads to one attribute. -/
theorem WellNamed.filter_fieldName_eq (h : m.WellNamed) (ha : a ∈ m.attributes) :
    m.attributes.filter (·.fieldName = a.fieldName) = [a] := by
  have hn : (m.attributes.map (·.fieldName)).Nodup := h.fieldNames_nodup
  generalize m.attributes = attributes at hn ha
  induction attributes with
  | nil => cases ha
  | cons b rest ih =>
    obtain ⟨hb, hn⟩ := List.nodup_cons.mp hn
    rcases List.mem_cons.mp ha with rfl | ha
    · -- No other attribute has the field of the first one.
      have hnone : rest.filter (·.fieldName = a.fieldName) = [] :=
        List.filter_eq_nil_iff.mpr fun c hc he =>
          hb (List.mem_map.mpr ⟨c, hc, of_decide_eq_true he⟩)
      simp [hnone]
    · have hne : b.fieldName ≠ a.fieldName :=
        fun he => hb (List.mem_map.mpr ⟨a, ha, he.symm⟩)
      rw [List.filter_cons_of_neg (by simp [hne]), ih hn ha]

end Model

namespace Round

variable {config : Config} {input : Candidates} {d p : Declaration} {a : Attribute}

/-- A property setter that is accepted declares the attribute that it sets. -/
theorem declares_of_ofSetter (hp : p ∈ acceptedProperties config input)
    (howner : p.enclosing = some d.id) (hset : Attribute.ofSetter config p = .ok a) :
    p.Declares config d.id a := by
  obtain ⟨-, earlier, hj⟩ := Judgement.mem_accepted hp
  obtain ⟨k, -, hj⟩ := List.any_eq_true.mp hj
  have hcheck := (isOwn_eq_true.mp ((Bool.and_eq_true _ _).mp hj).1).2
  have harity : p.parameters.length = 1 := (checkMember_eq_ok.mp hcheck).2.1
  obtain ⟨parameter, rest, default, hparameters, -, rfl⟩ := Attribute.ofSetter_eq_ok.mp hset
  have hrest : rest = [] := by simpa [hparameters] using harity
  exact ⟨howner, rfl, rfl, parameter, hrest ▸ hparameters, rfl, rfl, rfl, rfl, rfl⟩

/-- The declared attributes of a component come from the property setters that are accepted and
belong to it, one from each in their order. -/
theorem forall₂_declares (hd : d ∈ keptComponents config input.components) :
    List.Forall₂ (Declaration.Declares config d.id) (ownedBy d (acceptedProperties config input))
      (localModel config input d).declaredAttributes := by
  have hset : List.Forall₂ (fun p a => Attribute.ofSetter config p = .ok a)
      (ownedBy d (acceptedProperties config input))
      (localModel config input d).declaredAttributes := by
    have heq := List.forall₂_eq_eq_eq.symm ▸ (declaredAttributes_localModel config input hd).symm
    exact List.forall₂_map_right_iff.mp (List.forall₂_map_left_iff.mp heq)
  refine ((List.forall₂_and_left _ _).mpr ⟨fun p hp => hp, hset⟩).imp fun p a ⟨hp, hset⟩ => ?_
  obtain ⟨hp, howner⟩ := List.mem_filter.mp hp
  exact declares_of_ofSetter hp (of_decide_eq_true howner) hset

/-- Every attribute in a model of a round leads back to its origin. The declared ones come first,
and belong to property setters of the component among the candidates, one to each and in their
order. The overloads follow. The field that an overload names is that of exactly one attribute of
the model, which is declared and is the one that the overload is derived from; no two overloads have
one name or one such attribute. -/
theorem attributes_traced {σ : Type} (config : Config) (emitter : Emitter σ) (s : σ)
    (input : Candidates) : ∀ m ∈ (run config emitter s input).1.models,
      m.attributes = m.declaredAttributes ++ m.derivedAttributes ∧
      (∃ setters, setters.Sublist input.properties ∧
        List.Forall₂ (Declaration.Declares config m.component) setters m.declaredAttributes) ∧
      (∀ o ∈ m.derivedAttributes, ∃ a,
        m.attributes.filter (fun b => o.sourceField? = some b.fieldName) = [a] ∧
          o.DerivesFrom config a) ∧
      (m.derivedAttributes.map (·.name)).Nodup ∧
      (m.derivedAttributes.map (·.sourceField?)).Nodup := by
  intro m hm
  obtain ⟨d, hd, rfl⟩ := mem_run_models hm
  have hnamed := localModel_wellNamed config input d
  have hattributes : (localModel config input d).attributes =
      (localModel config input d).declaredAttributes ++
        (localModel config input d).derivedAttributes := by
    rw [declaredAttributes_eq_attachedModel, derivedAttributes_eq_overloads, localModel,
      addOwnResets_attributes, Model.synthesize_attributes]
  have hcomponent : (localModel config input d).component = d.id :=
    (completed_holds config input).component d hd
  refine ⟨hattributes, ⟨ownedBy d (acceptedProperties config input), ?_, ?_⟩, ?_, ?_, ?_⟩
  · exact List.filter_sublist.trans (Judgement.accepted_sublist _ _ _)
  · rw [hcomponent]
    exact forall₂_declares hd
  · intro o ho
    rw [derivedAttributes_eq_overloads, Model.overloads_eq] at ho
    obtain ⟨a, ha, rfl⟩ := List.mem_map.mp ho
    obtain ⟨ha, htext, -, -⟩ := Model.mem_overloadSources ha
    have hmem : a ∈ (localModel config input d).attributes := by
      rw [hattributes, declaredAttributes_eq_attachedModel]
      exact List.mem_append_left _ ha
    refine ⟨a, ?_, Attribute.overload_derivesFrom (isOverload_attachedModel ha) htext⟩
    rw [← hnamed.filter_fieldName_eq hmem]
    refine List.filter_congr fun b _ => ?_
    simp [eq_comm]
  · rw [derivedAttributes_eq_overloads]
    exact Model.names_overloads_nodup config _
  · have hfields : ((localModel config input d).declaredAttributes.map (·.fieldName)).Nodup :=
      hnamed.fieldNames_nodup.sublist (List.filter_sublist.map _)
    rw [declaredAttributes_eq_attachedModel] at hfields
    rw [derivedAttributes_eq_overloads]
    exact Model.sourceFields_overloads_nodup config hfields

/-- A card whose title is set as one text type, as another, and once more as the first, and which
has a subtitle. The third setter is given up, and the titles share an overload. -/
def sharedTitleRound : Candidates where
  components := [(Declaration.ofClass "com.example" "CardView").extending "android.view.View"]
  properties :=
    [("setTitle", "java.lang.CharSequence"), ("setTitle", "java.lang.String"),
      ("title", "java.lang.CharSequence"), ("setSubtitle", "java.lang.String")].map
        fun (method, type) => .ofMethod ⟨"com.example.CardView"⟩ method
          [⟨"value", .ofName type, [.ofName "androidx.annotation.Nullable"]⟩]
  resets := []

theorem attributes_traced_shared_title :
    ∃ m ∈ (run .standard .null () sharedTitleRound).1.models,
      m.declaredAttributes.map (·.originSetter) = ["setTitle", "setTitle", "setSubtitle"] ∧
      m.derivedAttributes.map (·.sourceField?) =
        [some "title_CharSequence", some "subtitle_String"] ∧
      ∃ setters, setters.Sublist sharedTitleRound.properties ∧
        List.Forall₂ (Declaration.Declares .standard m.component) setters
          m.declaredAttributes := by
  have h : ∃ m ∈ (run .standard .null () sharedTitleRound).1.models,
      m.declaredAttributes.map (·.originSetter) = ["setTitle", "setTitle", "setSubtitle"] ∧
      m.derivedAttributes.map (·.sourceField?) =
        [some "title_CharSequence", some "subtitle_String"] := by
    decide +kernel
  obtain ⟨m, hm, hdeclared, hderived⟩ := h
  exact ⟨m, hm, hdeclared, hderived,
    (attributes_traced .standard .null () sharedTitleRound m hm).2.1⟩

end Round

end Metamodel
