import Metamodel.Proofs.Model.Overloads
import Metamodel.Proofs.Round.Local

/-!
# Every candidate is accounted for

A candidate either leaves something in a model or gets one diagnostic. What it leaves is a model, an
attribute that was declared, or a reset method.

* `attributes_attachedModel`: the attributes of a component are those of the property setters that
  are accepted and belong to it.
* `flatMap_ownedBy_perm`: the components have all members together, each once.
* `candidates_accounted`: the diagnostics are those of the candidates that are refused, and together
  with what the models hold they are as many as the candidates.
-/

namespace Metamodel

namespace Model

/-- The attributes that stem from property setters. -/
def declaredAttributes (m : Model) : List Attribute :=
  m.attributes.filter fun a => !a.isOverload

/-- The attributes that were derived from others. -/
def derivedAttributes (m : Model) : List Attribute :=
  m.attributes.filter (·.isOverload)

/-- The derivation of overloads adds no attribute that stems from a property setter. -/
theorem declaredAttributes_synthesize (config : Config) {m : Model}
    (h : ∀ a ∈ m.attributes, a.isOverload = false) :
    (m.synthesize config).declaredAttributes = m.attributes := by
  have hdeclared : m.attributes.filter (fun a => !a.isOverload) = m.attributes :=
    List.filter_eq_self.mpr fun a ha => by simp [h a ha]
  have hderived : (m.overloads config).filter (fun a => !a.isOverload) = [] := by
    rw [List.filter_eq_nil_iff, overloads_eq]
    intro o ho
    obtain ⟨a, -, rfl⟩ := List.mem_map.mp ho
    simp
  rw [declaredAttributes, synthesize_attributes, List.filter_append, hdeclared, hderived,
    List.append_nil]

/-- What is derived from a model whose attributes are all declared are its overloads. -/
theorem derivedAttributes_synthesize (config : Config) {m : Model}
    (h : ∀ a ∈ m.attributes, a.isOverload = false) :
    (m.synthesize config).derivedAttributes = m.overloads config := by
  have hdeclared : m.attributes.filter (·.isOverload) = [] :=
    List.filter_eq_nil_iff.mpr fun a ha => by simp [h a ha]
  have hderived : (m.overloads config).filter (·.isOverload) = m.overloads config := by
    rw [List.filter_eq_self, overloads_eq]
    intro o ho
    obtain ⟨a, -, rfl⟩ := List.mem_map.mp ho
    rfl
  rw [derivedAttributes, synthesize_attributes, List.filter_append, hdeclared, hderived,
    List.nil_append]

end Model

namespace Round

/-- The property setters whose attributes are attached. -/
def acceptedProperties (config : Config) (input : Candidates) : List Declaration :=
  (judgeProperty config (keptComponents config input.components)).accepted [] input.properties

/-- The reset methods that are added. -/
def acceptedResets (config : Config) (input : Candidates) : List Declaration :=
  (judgeReset config (keptComponents config input.components)).accepted [] input.resets

/-- The components that are not registered, the property setters that are not attached and the reset
methods that are not added. -/
def refusedCandidates (config : Config) (input : Candidates) : List Declaration :=
  (judgeComponent config).refused [] input.components ++
    (judgeProperty config (keptComponents config input.components)).refused [] input.properties ++
    (judgeReset config (keptComponents config input.components)).refused [] input.resets

/-- Every candidate is either accepted or refused. -/
theorem length_refusedCandidates (config : Config) (input : Candidates) :
    (refusedCandidates config input).length +
      ((judgeComponent config).accepted [] input.components).length +
        (acceptedProperties config input).length + (acceptedResets config input).length =
      input.size := by
  have hcomponents := (judgeComponent config).length_accepted_add_refused [] input.components
  have hproperties := (judgeProperty config
    (keptComponents config input.components)).length_accepted_add_refused [] input.properties
  have hresets := (judgeReset config
    (keptComponents config input.components)).length_accepted_add_refused [] input.resets
  unfold refusedCandidates acceptedProperties acceptedResets Candidates.size
  simp only [List.length_append]
  omega

/-! ## Owners -/

/-- The members of a list that belong to a component. -/
def ownedBy (d : Declaration) (members : List Declaration) : List Declaration :=
  members.filter fun p => p.enclosing = some d.id

/-- If every member belongs to one of several components, they have all members together. -/
theorem flatMap_ownedBy_perm {kept members : List Declaration} (hn : (kept.map (·.id)).Nodup)
    (h : ∀ p ∈ members, ∃ d ∈ kept, p.enclosing = some d.id) :
    (kept.flatMap fun d => ownedBy d members).Perm members := by
  induction kept generalizing members with
  | nil =>
    have hnone : members = [] := by
      refine List.eq_nil_iff_forall_not_mem.mpr fun p hp => ?_
      obtain ⟨d, hd, -⟩ := h p hp
      exact List.not_mem_nil hd
    rw [hnone]
    exact .refl _
  | cons d rest ih =>
    obtain ⟨hd, hn⟩ := List.nodup_cons.mp hn
    -- What belongs to the other components is among what does not belong to the first.
    let others := members.filter fun p => !decide (p.enclosing = some d.id)
    have hothers : ∀ p ∈ others, ∃ k ∈ rest, p.enclosing = some k.id := by
      intro p hp
      obtain ⟨hp, hne⟩ := List.mem_filter.mp hp
      obtain ⟨k, hk, he⟩ := h p hp
      rcases List.mem_cons.mp hk with rfl | hk
      · simp [he] at hne
      · exact ⟨k, hk, he⟩
    have hsame : ∀ k ∈ rest, ownedBy k others = ownedBy k members := by
      intro k hk
      have hne : k.id ≠ d.id := fun he => hd (List.mem_map.mpr ⟨k, hk, he⟩)
      unfold ownedBy
      rw [List.filter_filter]
      congr 1
      funext p
      by_cases he : p.enclosing = some k.id <;> simp [he, hne]
    have hrest : (rest.flatMap fun k => ownedBy k members).Perm others := by
      rw [List.flatMap_def, ← List.map_congr_left hsame, ← List.flatMap_def]
      exact ih hn hothers
    rw [List.flatMap_cons]
    exact (hrest.append_left _).trans (List.filter_append_perm _ members)

/-! ## What is accepted -/

variable {config : Config} {input : Candidates} {kept before : List Declaration} {d p : Declaration}

/-- The component that a property setter belongs to decides whether it is accepted. -/
theorem judgeProperty_of_owner (hu : ∀ k ∈ kept, k.id = d.id → k = d) (hd : d ∈ kept)
    (he : p.enclosing = some d.id) :
    judgeProperty config kept before p = (isOwn config .property d.id p &&
      ((attachedModel config before d).attachment config p).isOk) := by
  rw [Bool.eq_iff_iff, judgeProperty, List.any_eq_true]
  constructor
  · rintro ⟨k, hk, h⟩
    have hown := (isOwn_eq_true.mp ((Bool.and_eq_true _ _).mp h).1).1
    obtain rfl := hu k hk (Option.some.inj (hown.symm.trans he))
    exact h
  · exact fun h => ⟨d, hd, h⟩

/-- What a property setter adds to the attributes of a component: its attribute, if it is accepted
and belongs to the component. -/
theorem attributes_attachedModel_append (hu : ∀ k ∈ kept, k.id = d.id → k = d) (hd : d ∈ kept) :
    (attachedModel config (before ++ [p]) d).attributes.map .ok =
      (attachedModel config before d).attributes.map .ok ++
        (ownedBy d (if judgeProperty config kept before p then [p] else [])).map
          (Attribute.ofSetter config) := by
  rw [attachedModel_append, attachmentChange_apply]
  by_cases he : p.enclosing = some d.id
  · rw [judgeProperty_of_owner hu hd he]
    cases hown : isOwn config .property d.id p with
    | false => simp [ownedBy]
    | true =>
      cases ha : (attachedModel config before d).attachment config p with
      | error rejection =>
        rw [Model.attachOrKeep_of_error ha]
        simp [ownedBy, Except.isOk, Except.toBool]
      | ok a =>
        have hset := (Model.attachment_eq_ok.mp ha).1
        rw [Model.attachOrKeep_of_ok ha]
        simp [ownedBy, he, hset, Model.appendAttributes, Except.isOk, Except.toBool]
  · -- The property setter belongs to another component, accepted or not.
    have hown : ¬ isOwn config .property d.id p = true := fun h => he (isOwn_eq_true.mp h).1
    rw [if_neg hown]
    split <;> simp [ownedBy, he]

/-- The attributes of a component are those of the property setters that are accepted and belong to
it, in order. -/
theorem attributes_attachedModel (hu : ∀ k ∈ kept, k.id = d.id → k = d) (hd : d ∈ kept)
    (properties : List Declaration) :
    (attachedModel config properties d).attributes.map .ok =
      (ownedBy d ((judgeProperty config kept).accepted [] properties)).map
        (Attribute.ofSetter config) := by
  suffices h : ∀ before, (attachedModel config (before ++ properties) d).attributes.map .ok =
      (attachedModel config before d).attributes.map .ok ++
        (ownedBy d ((judgeProperty config kept).accepted before properties)).map
          (Attribute.ofSetter config) by
    exact h []
  induction properties with
  | nil => simp [Judgement.accepted, ownedBy]
  | cons p rest ih =>
    intro before
    rw [List.append_cons, ih, attributes_attachedModel_append hu hd, Judgement.accepted,
      List.append_assoc, ← List.map_append, ownedBy, ownedBy, ← List.filter_append]
    split <;> rfl

/-- The declared attributes of a model are those that were there before the overloads. -/
theorem declaredAttributes_eq_attachedModel (config : Config) (input : Candidates)
    (d : Declaration) : (localModel config input d).declaredAttributes =
      (attachedModel config input.properties d).attributes := by
  rw [Model.declaredAttributes, localModel, addOwnResets_attributes]
  exact Model.declaredAttributes_synthesize config fun a => isOverload_attachedModel

theorem derivedAttributes_eq_overloads (config : Config) (input : Candidates) (d : Declaration) :
    (localModel config input d).derivedAttributes =
      (attachedModel config input.properties d).overloads config := by
  rw [Model.derivedAttributes, localModel, addOwnResets_attributes]
  exact Model.derivedAttributes_synthesize config fun a => isOverload_attachedModel

/-- The attributes of a model that stem from property setters are those of the accepted property
setters of its component. -/
theorem declaredAttributes_localModel (config : Config) (input : Candidates)
    (hd : d ∈ keptComponents config input.components) :
    (localModel config input d).declaredAttributes.map .ok =
      (ownedBy d (acceptedProperties config input)).map (Attribute.ofSetter config) := by
  have hattached : (attachedModel config input.properties d).attributes.map .ok =
      (ownedBy d (acceptedProperties config input)).map (Attribute.ofSetter config) :=
    attributes_attachedModel (fun k hk he => (registered_holds config input).eq_of_id hk hd he) hd
      input.properties
  rw [declaredAttributes_eq_attachedModel, hattached]

/-- The reset methods of a model are those that are accepted and belong to its component. -/
theorem resetActions_localModel (config : Config) (input : Candidates)
    (hd : d ∈ keptComponents config input.components) :
    (localModel config input d).resetActions =
      (ownedBy d (acceptedResets config input)).map (·.name) := by
  have hown : ownedBy d (acceptedResets config input) =
      ownMembers config .reset d.id input.resets := by
    unfold ownedBy acceptedResets judgeReset ownMembers
    rw [Judgement.accepted_const, List.filter_filter]
    refine List.filter_congr fun p hp => ?_
    rw [Bool.eq_iff_iff, Bool.and_eq_true, decide_eq_true_iff, List.any_eq_true]
    constructor
    · rintro ⟨he, k, hk, h⟩
      have hid := (isOwn_eq_true.mp h).1.symm.trans he
      obtain rfl := (registered_holds config input).eq_of_id hk hd (Option.some.inj hid)
      exact h
    · exact fun h => ⟨(isOwn_eq_true.mp h).1, d, hd, h⟩
  rw [localModel, addOwnResets_resetActions, Model.synthesize_resetActions,
    attachedModel_resetActions, hown, List.nil_append]

/-! ## Rounds -/

theorem exists_owner_of_property (h : p ∈ acceptedProperties config input) :
    ∃ d ∈ keptComponents config input.components, p.enclosing = some d.id := by
  obtain ⟨-, earlier, hj⟩ := Judgement.mem_accepted h
  obtain ⟨d, hd, hj⟩ := List.any_eq_true.mp hj
  exact ⟨d, hd, (isOwn_eq_true.mp ((Bool.and_eq_true _ _).mp hj).1).1⟩

theorem exists_owner_of_reset (h : p ∈ acceptedResets config input) :
    ∃ d ∈ keptComponents config input.components, p.enclosing = some d.id := by
  obtain ⟨-, earlier, hj⟩ := Judgement.mem_accepted h
  obtain ⟨d, hd, hj⟩ := List.any_eq_true.mp hj
  exact ⟨d, hd, (isOwn_eq_true.mp hj).1⟩

/-- The diagnostics of a round are those of the candidates that are refused. -/
theorem process_locations (config : Config) (input : Candidates) :
    (process config input).diagnostics.map (·.location) =
      (refusedCandidates config input).map .ofDeclaration := by
  have hcomponents : (registered config input).diagnostics.map (·.location) =
      ((judgeComponent config).refused [] input.components).map .ofDeclaration :=
    (registerComponent_follows config).scan_locations (registerComponent_hasEffect config)
      (Progress.start input).advance Registry.Holds.empty input.components
  have hproperties : (attached config input).diagnostics.map (·.location) =
      (registered config input).diagnostics.map (·.location) ++ _ :=
    (attachProperty_follows config _).scan_locations (attachProperty_hasEffect config)
      (registered config input).advance (registered_holds config input) input.properties
  have hresets : (completed config input).diagnostics.map (·.location) =
      (attached config input).diagnostics.map (·.location) ++ _ :=
    (addReset_follows config _ _).scan_locations (addReset_hasEffect config)
      (overloaded config input).advance (overloaded_holds config input) input.resets
  rw [process_eq, hresets, hproperties, hcomponents, refusedCandidates, List.map_append,
    List.map_append]

/-- What is said of a model of a round, said of all. -/
theorem map_process_models {β : Type} {g : Model → β} {f : Declaration → β}
    (h : ∀ d ∈ keptComponents config input.components, g (localModel config input d) = f d) :
    (process config input).models.map g = (keptComponents config input.components).map f := by
  rw [process_models, List.map_map]
  exact List.map_congr_left h

/-- If each model holds as much as its component has of some members, and every member belongs to
such a component, the models hold as much as there are members. -/
theorem length_flatMap_process_models {β : Type} {g : Model → List β} {members : List Declaration}
    (h : ∀ d ∈ keptComponents config input.components,
      (g (localModel config input d)).length = (ownedBy d members).length)
    (howner : ∀ p ∈ members, ∃ d ∈ keptComponents config input.components,
      p.enclosing = some d.id) :
    ((process config input).models.flatMap g).length = members.length := by
  have hperm := flatMap_ownedBy_perm (registered_holds config input).ids_nodup howner
  rw [← hperm.length_eq, List.length_flatMap, List.length_flatMap, map_process_models h]

/-- Every candidate is accounted for exactly once. The diagnostics are those of the candidates that
are refused, phase by phase and in order, each at its own candidate. The others have left what they
are for: a component its model, a property setter its attribute and a reset method its name. So
there are as many candidates as diagnostics, models, declared attributes and reset methods. -/
theorem candidates_accounted (config : Config) (input : Candidates) :
    (process config input).diagnostics.map (·.location) =
        (refusedCandidates config input).map .ofDeclaration ∧
      (process config input).models.map (·.component) =
        ((judgeComponent config).accepted [] input.components).map (·.id) ∧
      (process config input).models.map (fun m => m.declaredAttributes.map .ok) =
        (keptComponents config input.components).map (fun d =>
          (ownedBy d (acceptedProperties config input)).map (Attribute.ofSetter config)) ∧
      (process config input).models.map (·.resetActions) =
        (keptComponents config input.components).map (fun d =>
          (ownedBy d (acceptedResets config input)).map (·.name)) ∧
      (process config input).diagnostics.length + (process config input).models.length +
        ((process config input).models.flatMap (·.declaredAttributes)).length +
        ((process config input).models.flatMap (·.resetActions)).length = input.size := by
  have hlocations := process_locations config input
  have hcomponents := keptComponents_eq_accepted config input.components
  refine ⟨hlocations, ?_, map_process_models fun d => declaredAttributes_localModel config input,
    map_process_models fun d => resetActions_localModel config input, ?_⟩
  · rw [← hcomponents]
    exact map_process_models (completed_holds config input).component
  · have hmodels : (process config input).models.length =
        ((judgeComponent config).accepted [] input.components).length := by
      rw [process_models, List.length_map, hcomponents]
    have hattributes : ((process config input).models.flatMap (·.declaredAttributes)).length =
        (acceptedProperties config input).length := by
      refine length_flatMap_process_models (fun d hd => ?_) fun p => exists_owner_of_property
      simpa using congrArg List.length (declaredAttributes_localModel config input hd)
    have hresets : ((process config input).models.flatMap (·.resetActions)).length =
        (acceptedResets config input).length := by
      refine length_flatMap_process_models (fun d hd => ?_) fun p => exists_owner_of_reset
      simpa using congrArg List.length (resetActions_localModel config input hd)
    have hrefused := congrArg List.length hlocations
    rw [List.length_map, List.length_map] at hrefused
    rw [hattributes, hresets, hmodels, hrefused]
    exact length_refusedCandidates config input

end Round

end Metamodel
