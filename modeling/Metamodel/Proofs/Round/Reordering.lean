import Mathlib.Data.List.Perm.Basic
import Metamodel.Proofs.Round.Clean

/-!
# Rounds in another order

If a round gives up nothing, the order of its candidates decides about the order of what it leaves
behind and about which attributes overloads are derived from. All else is the same in any order.

* `Model.SameUpToOrder`: two models differ at most in that way.
* `Clean.perm`: candidates stay clean in another order.
* `localModel_sameUpToOrder`: clean candidates in another order give a component the same model.
* `process_perm`: a round that gives up nothing does so in any order, with the same models.
-/

namespace Metamodel

namespace Model

/-- The fields of the overloads, in order. -/
def overloadFields (m : Model) : List String :=
  (m.attributes.filter (·.isOverload)).map (·.fieldName)

/-- Two models differ at most in the order of declared attributes, of reset methods and of
overloads, and in the attributes that overloads are derived from. -/
structure SameUpToOrder (m n : Model) : Prop where
  component : n.component = m.component
  componentType : n.componentType = m.componentType
  generated : n.generated = m.generated
  supertype : n.supertype = m.supertype
  layout : n.layout = m.layout
  declaredAttributes : n.declaredAttributes.Perm m.declaredAttributes
  resetActions : n.resetActions.Perm m.resetActions
  overloadFields : n.overloadFields.Perm m.overloadFields

end Model

namespace Round

variable {config : Config} {input other : Candidates} {d : Declaration}

/-! ## Clean candidates -/

/-- Clean candidates are clean in any order. -/
theorem Clean.perm (h : Clean config input) (hcomponents : other.components.Perm input.components)
    (hproperties : other.properties.Perm input.properties)
    (hresets : other.resets.Perm input.resets) : Clean config other where
  components d hd := h.components d (hcomponents.mem_iff.mp hd)
  keys := (hcomponents.pairwise_iff HasOtherKeys.symm).mpr h.keys
  properties p hp := by
    obtain ⟨⟨d, hd, hown⟩, hset⟩ := h.properties p (hproperties.mem_iff.mp hp)
    exact ⟨⟨d, hcomponents.mem_iff.mpr hd, hown⟩, hset⟩
  fields := (hproperties.pairwise_iff WantsOtherField.symm).mpr h.fields
  resets p hp := by
    obtain ⟨d, hd, hown⟩ := h.resets p (hresets.mem_iff.mp hp)
    exact ⟨d, hcomponents.mem_iff.mpr hd, hown⟩

/-- The attributes that are attached to a component are those of its property setters. -/
theorem Clean.attributes_attachedModel (h : Clean config input) (hd : d ∈ input.components) :
    (attachedModel config input.properties d).attributes.map .ok =
      (ownedBy d input.properties).map (Attribute.ofSetter config) := by
  rw [← h.keptComponents_eq] at hd
  have hattributes : (attachedModel config input.properties d).attributes.map .ok =
      (ownedBy d (acceptedProperties config input)).map (Attribute.ofSetter config) :=
    Round.attributes_attachedModel
      (fun k hk he => (registered_holds config input).eq_of_id hk hd he) hd input.properties
  rwa [h.acceptedProperties_eq] at hattributes

/-- The attributes that are attached to a component are the same in any order. -/
theorem Clean.attributes_perm (h : Clean config input) (hother : Clean config other)
    (hd : d ∈ input.components) (hd' : d ∈ other.components)
    (hproperties : other.properties.Perm input.properties) :
    (attachedModel config other.properties d).attributes.Perm
      (attachedModel config input.properties d).attributes := by
  have hinj : Function.Injective (Except.ok : Attribute → Except Rejection Attribute) :=
    fun a b => Except.ok.inj
  rw [← List.map_perm_map_iff hinj, h.attributes_attachedModel hd,
    hother.attributes_attachedModel hd']
  exact (hproperties.filter _).map _

/-! ## Models -/

theorem overloadFields_localModel (config : Config) (input : Candidates) (d : Declaration) :
    (localModel config input d).overloadFields =
      ((attachedModel config input.properties d).overloads config).map (·.fieldName) := by
  rw [Model.overloadFields, ← Model.derivedAttributes, derivedAttributes_eq_overloads]

theorem Clean.resetActions_localModel (h : Clean config input) (hd : d ∈ input.components) :
    (localModel config input d).resetActions = (ownedBy d input.resets).map (·.name) := by
  rw [← h.keptComponents_eq] at hd
  rw [Round.resetActions_localModel config input hd, h.acceptedResets_eq]

/-- Clean candidates give a component the same model in any order. -/
theorem localModel_sameUpToOrder (h : Clean config input) (hd : d ∈ input.components)
    (hcomponents : other.components.Perm input.components)
    (hproperties : other.properties.Perm input.properties)
    (hresets : other.resets.Perm input.resets) :
    (localModel config input d).SameUpToOrder (localModel config other d) := by
  have hother := h.perm hcomponents hproperties hresets
  have hd' := hcomponents.mem_iff.mpr hd
  have hattributes := h.attributes_perm hother hd hd' hproperties
  constructor
  case declaredAttributes =>
    rwa [declaredAttributes_eq_attachedModel, declaredAttributes_eq_attachedModel]
  case resetActions =>
    rw [h.resetActions_localModel hd, hother.resetActions_localModel hd']
    exact (hresets.filter _).map _
  case overloadFields =>
    rw [overloadFields_localModel, overloadFields_localModel]
    exact Model.overloads_fields_perm config hattributes
  -- All else is that of the component.
  all_goals rw [localModel_eq config input, localModel_eq config other]

/-- A round of clean candidates has the model of each of them. -/
theorem Clean.process_models (h : Clean config input) :
    (process config input).models = input.components.map (localModel config input) := by
  rw [Round.process_models, h.keptComponents_eq]

/-- A round that gives up nothing does so with its candidates in any order. Then both rounds have
the same components, and the models of a component differ at most in the order of what was declared
and in the attributes that overloads are derived from: which fields overloads have is the same. -/
theorem process_perm (hclean : (process config input).diagnostics = [])
    (hcomponents : other.components.Perm input.components)
    (hproperties : other.properties.Perm input.properties)
    (hresets : other.resets.Perm input.resets) :
    (process config other).diagnostics = [] ∧
      ((process config other).models.map (·.component)).Perm
        ((process config input).models.map (·.component)) ∧
      ∀ d ∈ input.components, ∃ m ∈ (process config input).models,
        ∃ n ∈ (process config other).models, m.component = d.id ∧ n.component = d.id ∧
          m.SameUpToOrder n := by
  have h := (process_diagnostics_eq_nil_iff config input).mp hclean
  have hother := h.perm hcomponents hproperties hresets
  have hcomponent : ∀ (input : Candidates) (d : Declaration),
      (localModel config input d).component = d.id := by
    intro input d
    rw [localModel_eq]
    rfl
  refine ⟨(process_diagnostics_eq_nil_iff config other).mpr hother, ?_, fun d hd => ?_⟩
  · rw [h.process_models, hother.process_models]
    simpa [Function.comp_def, hcomponent] using hcomponents.map (·.id)
  · have hd' := hcomponents.mem_iff.mpr hd
    rw [h.process_models, hother.process_models]
    exact ⟨_, List.mem_map_of_mem hd, _, List.mem_map_of_mem hd', hcomponent input d,
      hcomponent other d, localModel_sameUpToOrder h hd hcomponents hproperties hresets⟩

/-- Two components. The title of the card is given by texts of two types, which share an overload,
and its heading by a text and by a class called `Int`, which keeps it from getting one. -/
def cardAndRowRound : Candidates where
  components := ["CardView", "RowView"].map fun name =>
    (Declaration.ofClass "com.example" name).extending "android.view.View"
  properties :=
    [("CardView", "setTitle", "java.lang.CharSequence"),
      ("CardView", "setHeading", "com.example.ui.Int"), ("RowView", "setTitle", "java.lang.String"),
      ("CardView", "setTitle", "java.lang.String"),
      ("CardView", "setHeading", "java.lang.CharSequence")].map fun (owner, method, type) =>
        .ofMethod ⟨"com.example." ++ owner⟩ method [⟨"value", .ofName type, []⟩]
  resets := [("CardView", "clearA"), ("RowView", "clear"), ("CardView", "clearB")].map
    fun (owner, method) => .ofMethod ⟨"com.example." ++ owner⟩ method []

/-- The same candidates, the last ones first. -/
def rowAndCardRound : Candidates where
  components := cardAndRowRound.components.reverse
  properties := cardAndRowRound.properties.reverse
  resets := cardAndRowRound.resets.reverse

theorem process_perm_cardAndRow :
    (process .standard cardAndRowRound).diagnostics = [] ∧
      (process .standard rowAndCardRound).diagnostics = [] ∧
      ∀ d ∈ cardAndRowRound.components, ∃ m ∈ (process .standard cardAndRowRound).models,
        ∃ n ∈ (process .standard rowAndCardRound).models, m.component = d.id ∧
          n.component = d.id ∧ m.SameUpToOrder n := by
  have hclean : (process .standard cardAndRowRound).diagnostics = [] := by decide +kernel
  have hcomponents : rowAndCardRound.components.Perm cardAndRowRound.components :=
    List.reverse_perm _
  have hproperties : rowAndCardRound.properties.Perm cardAndRowRound.properties :=
    List.reverse_perm _
  have hresets : rowAndCardRound.resets.Perm cardAndRowRound.resets := List.reverse_perm _
  have hperm := process_perm hclean hcomponents hproperties hresets
  exact ⟨hclean, hperm.1, hperm.2.2⟩

end Round

end Metamodel
