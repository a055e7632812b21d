import Metamodel.Proofs.Model.Attachment
import Metamodel.Proofs.Registry.Index
import Metamodel.Proofs.Round.Scan

/-!
# Rounds, component by component

A round goes through its candidates phase by phase and changes models in place. Its models are
those that come about when every component is taken for itself, with its own members in their order
and nothing else.

* `keptComponents`: the components that get a model.
* `localModel`: the model that a component gets from its own members.
* `registerComponent_follows`, `attachProperty_follows`, `addReset_follows`: which candidates the
  effect of a step takes, said by the components, and how it changes the models.
* `localModel_eq`: what the members of a component leave alone in its model.
* `completed_holds`: the models at the end of a round are the local ones.
* `models_eq_local`: a round is the rounds of its components, one after another.
-/

namespace Metamodel

namespace Round

variable {config : Config} {input : Candidates} {components kept before : List Declaration}
  {role : MemberRole} {d p : Declaration} {r : Registry} {i : Nat} {n : Model} {events : List Event}

/-! ## Components -/

/-- The qualified name of the class that is generated for a component. -/
def generatedName (config : Config) (d : Declaration) : String :=
  (Model.ofComponent config d).generated.qualifiedName

/-- A component gets a model behind those that got one: it keeps the rules, and no one before it has
its identity or its generated class. -/
def admits (config : Config) (kept : List Declaration) (d : Declaration) : Bool :=
  (checkComponent config d).isOk && kept.all fun k =>
    k.id ≠ d.id && generatedName config k ≠ generatedName config d

/-- The components that get a model, in order. -/
def keptComponents (config : Config) (components : List Declaration) : List Declaration :=
  components.foldl (fun kept d => if admits config kept d then kept ++ [d] else kept) []

/-- A component is accepted if it gets a model behind those before it. -/
def judgeComponent (config : Config) : Judgement := fun before d =>
  admits config (keptComponents config before) d

theorem keptComponents_append (config : Config) (before : List Declaration) (d : Declaration) :
    keptComponents config (before ++ [d]) =
      if judgeComponent config before d then keptComponents config before ++ [d]
      else keptComponents config before := by
  rw [keptComponents, List.foldl_append]
  rfl

/-- What it takes for a component to get a model. -/
theorem admits_eq_true :
    admits config kept d = true ↔ checkComponent config d = .ok () ∧
      ∀ k ∈ kept, k.id ≠ d.id ∧ generatedName config k ≠ generatedName config d := by
  unfold admits
  cases checkComponent config d <;> simp [Except.isOk, Except.toBool]

/-- The components that get a model are those that are accepted. -/
theorem keptComponents_eq_accepted (config : Config) (components : List Declaration) :
    keptComponents config components = (judgeComponent config).accepted [] components := by
  suffices h : ∀ before, keptComponents config (before ++ components) =
      keptComponents config before ++ (judgeComponent config).accepted before components from h []
  induction components with
  | nil => simp [Judgement.accepted]
  | cons d rest ih =>
    intro before
    rw [List.append_cons, ih, keptComponents_append, Judgement.accepted]
    split <;> simp

theorem checkComponent_of_mem (h : d ∈ keptComponents config components) :
    checkComponent config d = .ok () := by
  rw [keptComponents_eq_accepted] at h
  obtain ⟨-, earlier, hj⟩ := Judgement.mem_accepted h
  exact (admits_eq_true.mp hj).1

/-- A component that gets a model among others gets one alone. -/
theorem keptComponents_singleton (h : d ∈ keptComponents config components) :
    keptComponents config [d] = [d] := by
  have hadmits : admits config [] d = true :=
    admits_eq_true.mpr ⟨checkComponent_of_mem h, by simp⟩
  simp [keptComponents, hadmits]

/-- The registry has the bare models of the components that are kept. -/
def HoldsComponents (config : Config) (before : List Declaration) (r : Registry) : Prop :=
  r.Holds (keptComponents config before) (.ofComponent config)

/-- A bare model can be registered exactly if no component that is kept has its keys. -/
theorem exists_register_iff (h : HoldsComponents config before r) :
    (∃ s, r.register (.ofComponent config d) = .ok s) ↔ ∀ k ∈ keptComponents config before,
      k.id ≠ d.id ∧ generatedName config k ≠ generatedName config d := by
  simp only [h.indexed.register_eq_ok, h.models, List.forall_mem_map, exists_and_left,
    exists_eq, and_true]
  constructor
  · rintro ⟨hg, hc⟩ k hk
    exact ⟨hc k hk, hg k hk⟩
  · intro hk
    exact ⟨fun k h => (hk k h).2, fun k h => (hk k h).1⟩

/-- A component is registered exactly if it is accepted. -/
theorem registerComponent_follows (config : Config) :
    Progress.Follows (componentEffect config) (judgeComponent config)
      (HoldsComponents config) where
  accepts := by
    intro before r d h hj
    obtain ⟨hcheck, hk⟩ := admits_eq_true.mp hj
    obtain ⟨s, hs⟩ := (exists_register_iff h).mpr hk
    refine ⟨s, [], ?_, ?_⟩
    · simp [componentEffect, hcheck, hs, Except.bind, Except.map]
    · rw [HoldsComponents, keptComponents_append, if_pos hj]
      exact h.register rfl hs
  refuses := by
    intro before r d h hj
    have hkeep : HoldsComponents config (before ++ [d]) r := by
      rw [HoldsComponents, keptComponents_append, if_neg (by simp [hj])]
      exact h
    cases hcheck : checkComponent config d with
    | error rejection =>
      exact ⟨rejection, by simp [componentEffect, hcheck, Except.bind], hkeep⟩
    | ok u =>
      cases hs : r.register (.ofComponent config d) with
      | error rejection =>
        exact ⟨rejection, by simp [componentEffect, hcheck, hs, Except.bind, Except.map], hkeep⟩
      | ok s =>
        have hk := (exists_register_iff h).mp ⟨s, hs⟩
        rw [judgeComponent, admits_eq_true.mpr ⟨hcheck, hk⟩] at hj
        cases hj

/-! ## Members -/

/-- A member belongs to a component and keeps the rules of its role. -/
def isOwn (config : Config) (role : MemberRole) (component : DeclId) (p : Declaration) : Bool :=
  p.enclosing = some component && (checkMember config role p).isOk

/-- The members of a role that belong to a component and keep the rules of the role. -/
def ownMembers (config : Config) (role : MemberRole) (component : DeclId)
    (members : List Declaration) : List Declaration :=
  members.filter (isOwn config role component)

theorem isOwn_eq_true {component : DeclId} :
    isOwn config role component p = true ↔
      p.enclosing = some component ∧ checkMember config role p = .ok () := by
  unfold isOwn
  cases checkMember config role p <;> simp [Except.isOk, Except.toBool]

/-- The model after a change, or as it is if the change fails. -/
def Change.apply (change : Change) (m : Model) (p : Declaration) : Model :=
  match change m p with
  | .ok (n, _) => n
  | .error _ => m

/-- A member is accepted if it belongs to a component that is kept and keeps the rules, and the
change of the model so far succeeds. -/
def judgeMember (config : Config) (role : MemberRole) (change : Change) (kept : List Declaration)
    (f : List Declaration → Declaration → Model) : Judgement := fun before p =>
  kept.any fun d => isOwn config role d.id p && (change (f before d) p).isOk

section Members

variable {change : Change} {f : List Declaration → Declaration → Model}
  (hkeys : ∀ {m p n events}, change m p = .ok (n, events) →
    n.component = m.component ∧ n.generated = m.generated)
  (hf : ∀ before p d, f (before ++ [p]) d =
    if isOwn config role d.id p then change.apply (f before d) p else f before d)

include hf

/-- If a member changes nothing for the components that are kept, the registry may stay. -/
private theorem holds_keep (h : r.Holds kept (f before))
    (hkeep : ∀ d ∈ kept, isOwn config role d.id p = true →
      change.apply (f before d) p = f before d) :
    r.Holds kept (f (before ++ [p])) := by
  refine h.congr fun d hd => ?_
  rw [hf]
  split
  · rename_i hown
    exact (hkeep d hd hown).symm
  · rfl

include hkeys

/-- A change of one model, at the place of the component that the member belongs to. -/
private theorem holds_change (h : r.Holds kept (f before)) (hi : kept[i]? = some d)
    (hown : isOwn config role d.id p = true) (hc : change (f before d) p = .ok (n, events)) :
    (r.replace i n).Holds kept (f (before ++ [p])) := by
  obtain ⟨hcomponent, hgenerated⟩ := hkeys hc
  refine (h.replace hi hcomponent hgenerated).congr fun k hk => ?_
  rw [hf]
  by_cases hid : k.id = d.id
  · obtain rfl := h.eq_of_id hk (List.mem_of_getElem? hi) hid
    rw [if_pos rfl, if_pos hown, Change.apply, hc]
  · have hother : ¬ isOwn config role k.id p = true := by
      intro hkown
      have he := (isOwn_eq_true.mp hkown).1.symm.trans (isOwn_eq_true.mp hown).1
      exact hid (Option.some.inj he)
    rw [if_neg hid, if_neg hother]

/-- A member changes the model of its component exactly if it is accepted. -/
theorem changeOwner_follows (kept : List Declaration) :
    Progress.Follows (changeOwner config role change) (judgeMember config role change kept f)
      fun before r => r.Holds kept (f before) where
  accepts := by
    intro before r p h hj
    obtain ⟨d, hd, hj⟩ := List.any_eq_true.mp hj
    obtain ⟨hown, hok⟩ := (Bool.and_eq_true _ _).mp hj
    obtain ⟨he, hcheck⟩ := isOwn_eq_true.mp hown
    unfold changeOwner
    rw [hcheck]
    cases ho : r.owner? p with
    | none => exact absurd he (h.owner?_eq_none ho d hd)
    | some owner =>
      obtain ⟨i, m⟩ := owner
      obtain ⟨k, hi, hk, rfl⟩ := h.owner?_eq_some ho
      obtain rfl := h.eq_of_id (List.mem_of_getElem? hi) hd (Option.some.inj (hk.symm.trans he))
      cases hc : change (f before k) p with
      | error rejection => simp [hc, Except.isOk, Except.toBool] at hok
      | ok changed =>
        refine ⟨_, changed.2, ?_, holds_change hkeys hf h hi hown hc⟩
        simp [hc, Except.bind, Except.map]
  refuses := by
    intro before r p h hj
    unfold changeOwner
    cases hcheck : checkMember config role p with
    | error rejection =>
      refine ⟨rejection, rfl, holds_keep hf h fun d hd hown => ?_⟩
      rw [isOwn_eq_true, hcheck] at hown
      cases hown.2
    | ok u =>
      cases ho : r.owner? p with
      | none =>
        refine ⟨_, rfl, holds_keep hf h fun d hd hown => ?_⟩
        exact absurd (isOwn_eq_true.mp hown).1 (h.owner?_eq_none ho d hd)
      | some owner =>
        obtain ⟨i, m⟩ := owner
        obtain ⟨d, hi, he, rfl⟩ := h.owner?_eq_some ho
        have hd := List.mem_of_getElem? hi
        cases hc : change (f before d) p with
        | error rejection =>
          refine ⟨rejection, by simp [hc, Except.bind, Except.map], ?_⟩
          refine holds_keep hf h fun k hk hown => ?_
          have hid := he.symm.trans (isOwn_eq_true.mp hown).1
          obtain rfl := h.eq_of_id hd hk (Option.some.inj hid)
          rw [Change.apply, hc]
        | ok changed =>
          have hown : isOwn config role d.id p = true := isOwn_eq_true.mpr ⟨he, hcheck⟩
          have hj' : judgeMember config role change kept f before p = true :=
            List.any_eq_true.mpr ⟨d, hd, by simp [hown, hc, Except.isOk, Except.toBool]⟩
          rw [hj] at hj'
          cases hj'

end Members

/-! ## Property setters -/

/-- The model of a component with the attributes of its own property setters. -/
def attachedModel (config : Config) (properties : List Declaration) (d : Declaration) : Model :=
  (ownMembers config .property d.id properties).foldl (·.attachOrKeep config)
    (.ofComponent config d)

/-- A property setter is accepted if it belongs to a component that is kept and keeps the rules, and
its attribute can be attached to the model of the component so far. -/
def judgeProperty (config : Config) (kept : List Declaration) : Judgement := fun before p =>
  kept.any fun d => isOwn config .property d.id p &&
    ((attachedModel config before d).attachment config p).isOk

theorem attachmentChange_apply (config : Config) (m : Model) (p : Declaration) :
    (attachmentChange config).apply m p = m.attachOrKeep config p := by
  unfold Change.apply attachmentChange
  cases ha : m.attachment config p with
  | error rejection => exact (Model.attachOrKeep_of_error ha).symm
  | ok a => exact (Model.attachOrKeep_of_ok ha).symm

theorem attachedModel_resetActions (config : Config) (properties : List Declaration)
    (d : Declaration) : (attachedModel config properties d).resetActions = [] := by
  unfold attachedModel
  suffices h : ∀ m : Model, ((ownMembers config .property d.id properties).foldl
      (·.attachOrKeep config) m).resetActions = m.resetActions from h _
  induction ownMembers config .property d.id properties with
  | nil => exact fun _ => rfl
  | cons p rest ih => exact fun m => (ih _).trans (m.attachOrKeep_resetActions config p)

/-- What is attached is declared. -/
theorem isOverload_attachedModel {properties : List Declaration} {a : Attribute}
    (ha : a ∈ (attachedModel config properties d).attributes) : a.isOverload = false := by
  rcases Model.mem_attributes_foldl_attachOrKeep ha with h | ⟨p, -, hset⟩
  · cases h
  · exact Attribute.isOverload_ofSetter hset

theorem attachedModel_append (config : Config) (before : List Declaration) (p d : Declaration) :
    attachedModel config (before ++ [p]) d =
      if isOwn config .property d.id p then
        (attachmentChange config).apply (attachedModel config before d) p
      else attachedModel config before d := by
  simp only [attachmentChange_apply, attachedModel, ownMembers, List.filter_append,
    List.foldl_append]
  by_cases h : isOwn config .property d.id p = true <;> simp [h]

theorem judgeProperty_eq (config : Config) (kept : List Declaration) :
    judgeProperty config kept =
      judgeMember config .property (attachmentChange config) kept (attachedModel config) := by
  funext before p
  unfold judgeProperty judgeMember attachmentChange
  congr 1
  funext d
  cases (attachedModel config before d).attachment config p <;> rfl

/-- A property setter is attached exactly if it is accepted. -/
theorem attachProperty_follows (config : Config) (kept : List Declaration) :
    Progress.Follows (changeOwner config .property (attachmentChange config))
      (judgeProperty config kept) fun before r => r.Holds kept (attachedModel config before) := by
  rw [judgeProperty_eq]
  refine changeOwner_follows (fun {m p n events} h => ?_) (attachedModel_append config) kept
  unfold attachmentChange at h
  cases ha : m.attachment config p with
  | error rejection => simp [ha, Except.map] at h
  | ok a =>
    rw [ha] at h
    cases h
    exact ⟨rfl, rfl⟩

/-! ## Reset methods -/

/-- A model with the names of the own reset methods of its component behind those that it has. -/
def addOwnResets (config : Config) (resets : List Declaration) (d : Declaration) (m : Model) :
    Model :=
  { m with resetActions := m.resetActions ++ (ownMembers config .reset d.id resets).map (·.name) }

theorem addOwnResets_attributes (config : Config) (resets : List Declaration) (d : Declaration)
    (m : Model) : (addOwnResets config resets d m).attributes = m.attributes := rfl

theorem addOwnResets_resetActions (config : Config) (resets : List Declaration) (d : Declaration)
    (m : Model) : (addOwnResets config resets d m).resetActions =
      m.resetActions ++ (ownMembers config .reset d.id resets).map (·.name) := rfl

theorem addOwnResets_nil (config : Config) (d : Declaration) (m : Model) :
    addOwnResets config [] d m = m := by
  simp [addOwnResets, ownMembers]

/-- A reset method is added to the model of a component if it is one of its own. -/
theorem addOwnResets_append (config : Config) (before : List Declaration) (p d : Declaration)
    (m : Model) : addOwnResets config (before ++ [p]) d m =
      if isOwn config .reset d.id p then (addOwnResets config before d m).appendReset p.name
      else addOwnResets config before d m := by
  unfold addOwnResets ownMembers
  rw [List.filter_append]
  by_cases h : isOwn config .reset d.id p = true <;> simp [h, Model.appendReset]

/-- A reset method is accepted if it belongs to a component that is kept and keeps the rules. -/
def judgeReset (config : Config) (kept : List Declaration) : Judgement := fun _ p =>
  kept.any fun d => isOwn config .reset d.id p

/-- A reset method is added exactly if it is accepted. -/
theorem addReset_follows (config : Config) (kept : List Declaration) (f : Declaration → Model) :
    Progress.Follows (changeOwner config .reset resetChange) (judgeReset config kept)
      fun before r => r.Holds kept fun d => addOwnResets config before d (f d) := by
  have hjudge : judgeReset config kept = judgeMember config .reset resetChange kept
      fun before d => addOwnResets config before d (f d) := by
    funext before p
    simp [judgeReset, judgeMember, resetChange, Except.isOk, Except.toBool]
  rw [hjudge]
  refine changeOwner_follows (fun {m p n events} h => ?_)
    (fun before p d => addOwnResets_append config before p d (f d)) kept
  cases h
  exact ⟨rfl, rfl⟩

/-! ## Rounds -/

/-- The model that a component gets from its own members. -/
def localModel (config : Config) (input : Candidates) (d : Declaration) : Model :=
  addOwnResets config input.resets d ((attachedModel config input.properties d).synthesize config)

theorem attachedModel_eq (config : Config) (properties : List Declaration) (d : Declaration) :
    attachedModel config properties d = { Model.ofComponent config d with
      attributes := (attachedModel config properties d).attributes } := by
  unfold attachedModel
  suffices h : ∀ m : Model, (ownMembers config .property d.id properties).foldl
      (·.attachOrKeep config) m = { m with
        attributes := ((ownMembers config .property d.id properties).foldl
          (·.attachOrKeep config) m).attributes } from h _
  induction ownMembers config .property d.id properties with
  | nil => exact fun m => rfl
  | cons p rest ih =>
    intro m
    rw [List.foldl_cons, ih, Model.attachOrKeep_eq]

/-- The members of a component change nothing of its model but attributes and reset methods. -/
theorem localModel_eq (config : Config) (input : Candidates) (d : Declaration) :
    localModel config input d = { Model.ofComponent config d with
      attributes := (localModel config input d).attributes
      resetActions := (localModel config input d).resetActions } := by
  unfold localModel addOwnResets
  rw [Model.synthesize_eq, attachedModel_eq]
  rfl

theorem registered_holds (config : Config) (input : Candidates) :
    (registered config input).registry.Holds (keptComponents config input.components)
      (attachedModel config []) :=
  (registerComponent_follows config).scan_registry (registerComponent_hasEffect config)
    (Progress.start input).advance Registry.Holds.empty input.components

theorem attached_holds (config : Config) (input : Candidates) :
    (attached config input).registry.Holds (keptComponents config input.components)
      (attachedModel config input.properties) :=
  (attachProperty_follows config _).scan_registry (attachProperty_hasEffect config)
    (registered config input).advance (registered_holds config input) input.properties

theorem overloaded_holds (config : Config) (input : Candidates) :
    (overloaded config input).registry.Holds (keptComponents config input.components) fun d =>
      addOwnResets config [] d ((attachedModel config input.properties d).synthesize config) :=
  ((attached_holds config input).map (Model.synthesize_component config)
    (Model.synthesize_generated config)).congr fun d _ => (addOwnResets_nil config d _).symm

/-- The models at the end of a round are those that the components get for themselves. -/
theorem completed_holds (config : Config) (input : Candidates) :
    (completed config input).registry.Holds (keptComponents config input.components)
      (localModel config input) :=
  (addReset_follows config _ _).scan_registry (addReset_hasEffect config)
    (overloaded config input).advance (overloaded_holds config input) input.resets

theorem process_models (config : Config) (input : Candidates) :
    (process config input).models =
      (keptComponents config input.components).map (localModel config input) := by
  rw [process_eq, (completed_holds config input).models]

/-- Whatever an emitter refuses, the models of a report are local ones. -/
theorem mem_run_models {σ : Type} {emitter : Emitter σ} {s : σ} {m : Model}
    (h : m ∈ (run config emitter s input).1.models) :
    ∃ d ∈ keptComponents config input.components, m = localModel config input d := by
  have hm : m ∈ (completed config input).registry.models :=
    (emitter.emitAll_sublist (emitter.beginRound s) _).mem h
  rw [(completed_holds config input).models] at hm
  obtain ⟨d, hd, rfl⟩ := List.mem_map.mp hm
  exact ⟨d, hd, rfl⟩

end Round

/-! ## One component alone -/

namespace Candidates

/-- A component alone, with its own members under other identities. -/
def isolate (config : Config) (input : Candidates) (ids : MemberRole → Nat → DeclId)
    (d : Declaration) : Candidates where
  components := [d]
  properties := (Round.ownMembers config .property d.id input.properties).mapIdx fun i p =>
    { p with id := ids .property i }
  resets := (Round.ownMembers config .reset d.id input.resets).mapIdx fun i p =>
    { p with id := ids .reset i }

end Candidates

namespace Round

/-- Members that belong to a component still do under other identities. -/
theorem ownMembers_mapIdx (config : Config) (role : MemberRole) (component : DeclId)
    (ids : Nat → DeclId) (members : List Declaration) :
    ownMembers config role component
        ((ownMembers config role component members).mapIdx fun i p => { p with id := ids i }) =
      (ownMembers config role component members).mapIdx fun i p => { p with id := ids i } := by
  apply List.filter_eq_self.mpr
  intro p hp
  obtain ⟨i, hi, rfl⟩ := List.mem_mapIdx.mp hp
  exact (List.mem_filter.mp (List.getElem_mem hi)).2

private theorem foldl_mapIdx_id {β : Type} {g : β → Declaration → β}
    (hg : ∀ b p id, g b { p with id } = g b p) (b : β) (ids : Nat → DeclId)
    (members : List Declaration) :
    (members.mapIdx fun i p => { p with id := ids i }).foldl g b = members.foldl g b := by
  induction members generalizing b ids with
  | nil => rfl
  | cons p rest ih => rw [List.mapIdx_cons, List.foldl_cons, hg, ih _ fun i => ids (i + 1)]; rfl

private theorem map_mapIdx_id {β : Type} {g : Declaration → β}
    (hg : ∀ p id, g { p with id } = g p) (ids : Nat → DeclId) (members : List Declaration) :
    (members.mapIdx fun i p => { p with id := ids i }).map g = members.map g := by
  refine List.ext_getElem? fun i => ?_
  rw [List.getElem?_map, List.getElem?_map, List.getElem?_mapIdx, Option.map_map]
  exact congrArg (Option.map · members[i]?) (funext fun p => hg p (ids i))

/-- The model of a component looks at nothing but its own members, and not at their identities. -/
theorem localModel_isolate (config : Config) (input : Candidates) (ids : MemberRole → Nat → DeclId)
    (d : Declaration) :
    localModel config (input.isolate config ids d) d = localModel config input d := by
  unfold localModel addOwnResets attachedModel Candidates.isolate
  simp only [ownMembers_mapIdx]
  rw [foldl_mapIdx_id (Model.attachOrKeep_withId config), map_mapIdx_id fun _ _ => rfl]

/-- A round is the rounds of its components, one after another. The components that keep the rules
and repeat no earlier identity or generated class get a model, in their order. Each model comes
about from the own members of its component alone: their order among themselves counts, but neither
what lies between them nor their identities. -/
theorem models_eq_local (config : Config) (input : Candidates) :
    (process config input).models =
        (keptComponents config input.components).map (localModel config input) ∧
      ∀ ids : MemberRole → Nat → DeclId,
        (process config input).models = (keptComponents config input.components).flatMap fun d =>
          (process config (input.isolate config ids d)).models := by
  refine ⟨process_models config input, fun ids => ?_⟩
  have halone : ∀ d ∈ keptComponents config input.components,
      (process config (input.isolate config ids d)).models = [localModel config input d] := by
    intro d hd
    have hkept : keptComponents config (input.isolate config ids d).components = [d] :=
      keptComponents_singleton hd
    rw [process_models, hkept, List.map_singleton, localModel_isolate]
  rw [process_models, List.map_eq_flatMap, List.flatMap_def, List.flatMap_def,
    List.map_congr_left halone]

end Round

end Metamodel
