import Metamodel.Proofs.Results
import Metamodel.Round

/-!
# The steps of a round

The steps for candidates change a registry in place, and some of them fail after they have looked
at it, or have begun with a model of it. Still each of them is one transition or nothing: if it
fails, the registry and the reports are those from before.

* `Effect`, `HasEffect`: what an attempt comes to, and that a failure changes nothing.
* `HasEffect.of_run_error`: why an attempt fails, and what it leaves then.
* `changeOwner`: a transition of the model that a member belongs to, in its registry.
* `changeOwner_eq_ok`, `changeOwner_eq_error`: what such a transition needs, and why it fails.
* `registerComponent_hasEffect`, `attachProperty_hasEffect`, `addReset_hasEffect`: the transitions
  of the three steps.
-/

namespace Metamodel

/-! ## Effects -/

/-- What a candidate makes of a value, and what is reported. -/
abbrev Effect (σ : Type) := σ → Declaration → Except Rejection (σ × List Event)

/-- The result of a run is what an effect says: another value and more reports, or a failure with
the value and the reports from before. -/
inductive Agrees {σ α : Type} (before : Traced σ) :
    EStateM.Result Rejection (Traced σ) α → Except Rejection (σ × List Event) → Prop
  | ok (a : α) (s : σ) (events : List Event) :
    Agrees before (.ok a ⟨s, before.events ++ events⟩) (.ok (s, events))
  | error (rejection : Rejection) : Agrees before (.error rejection before) (.error rejection)

theorem Agrees.silent {σ α : Type} {before : Traced σ} (a : α) (s : σ) :
    Agrees before (.ok a ⟨s, before.events⟩) (.ok (s, [])) := by
  simpa using Agrees.ok a s ([] : List Event)

/-- Whatever an attempt begins with, its result is what the effect says. -/
def HasEffect {σ α : Type} (attempt : Declaration → Attempt σ α) (effect : Effect σ) : Prop :=
  ∀ t d, Agrees t ((attempt d).run t) (effect t.value d)

namespace HasEffect

variable {σ α : Type} {attempt : Declaration → Attempt σ α} {effect : Effect σ} {d : Declaration}
  {t left : Traced σ} {s : σ} {events : List Event} {rejection : Rejection}

theorem run_of_ok (h : HasEffect attempt effect) (he : effect t.value d = .ok (s, events)) :
    ∃ a, (attempt d).run t = .ok a ⟨s, t.events ++ events⟩ := by
  have hrun := h t d
  rw [he] at hrun
  generalize (attempt d).run t = result at hrun
  cases hrun with
  | ok a => exact ⟨a, rfl⟩

theorem run_of_error (h : HasEffect attempt effect) (he : effect t.value d = .error rejection) :
    (attempt d).run t = .error rejection t := by
  have hrun := h t d
  rw [he] at hrun
  generalize (attempt d).run t = result at hrun
  cases hrun with
  | error => rfl

/-- An attempt fails for the reason that the effect says, and leaves everything as it was. -/
theorem of_run_error (h : HasEffect attempt effect)
    (hrun : (attempt d).run t = .error rejection left) :
    effect t.value d = .error rejection ∧ left = t := by
  have hleft := h t d
  rw [hrun] at hleft
  generalize effect t.value d = outcome at hleft ⊢
  cases hleft with
  | error => exact ⟨rfl, rfl⟩

end HasEffect

namespace Round

variable {config : Config} {role : MemberRole} {r s : Registry} {p : Declaration}
  {events : List Event} {rejection : Rejection}

/-! ## Components -/

/-- A component is checked, and its model is registered. -/
def componentEffect (config : Config) : Effect Registry := fun r d =>
  (checkComponent config d).bind fun _ =>
    (r.register (.ofComponent config d)).map fun s => (s, [])

/-- A component that is refused leaves everything as it was. -/
theorem registerComponent_hasEffect (config : Config) :
    HasEffect (registerComponent config) (componentEffect config) := by
  rintro ⟨r, log⟩ d
  unfold registerComponent componentEffect
  rw [EStateM.run_bind, Attempt.run_ofExcept]
  cases checkComponent config d with
  | error rejection => exact .error rejection
  | ok u =>
    dsimp only
    rw [Registry.registerInPlace_run]
    cases r.register (.ofComponent config d) with
    | error rejection => exact .error rejection
    | ok s => exact .silent () s

/-! ## Members -/

/-- What a member makes of the model that it belongs to, and what is reported. -/
abbrev Change := Effect Model

/-- A member of a role is checked, and changes the model of its component. -/
def changeOwner (config : Config) (role : MemberRole) (change : Change) : Effect Registry :=
  fun r p =>
    (checkMember config role p).bind fun _ =>
      match r.owner? p with
      | none => .error (orphan config role p)
      | some (i, m) => (change m p).map fun (n, events) => (r.replace i n, events)

/-- A member that is accepted has changed the model that it belongs to. -/
theorem changeOwner_eq_ok {change : Change}
    (h : changeOwner config role change r p = .ok (s, events)) :
    ∃ i m n, r.owner? p = some (i, m) ∧ change m p = .ok (n, events) ∧ s = r.replace i n := by
  obtain ⟨u, -, h⟩ := bind_eq_ok_iff.mp h
  cases ho : r.owner? p with
  | none =>
    rw [ho] at h
    cases h
  | some owner =>
    rw [ho] at h
    obtain ⟨changed, hc, hs⟩ := map_eq_ok_iff.mp h
    cases hs
    exact ⟨owner.1, owner.2, changed.1, rfl, hc, rfl⟩

/-- A member that is refused breaks a rule, belongs to no model, or is refused by its model. -/
theorem changeOwner_eq_error {change : Change}
    (h : changeOwner config role change r p = .error rejection) :
    checkMember config role p = .error rejection ∨ checkMember config role p = .ok () ∧
      (rejection = orphan config role p ∨ ∃ m, change m p = .error rejection) := by
  rcases bind_eq_error_iff.mp h with hcheck | ⟨u, hcheck, h⟩
  · exact .inl hcheck
  refine .inr ⟨hcheck, ?_⟩
  cases ho : r.owner? p with
  | none =>
    rw [ho] at h
    cases h
    exact .inl rfl
  | some owner =>
    rw [ho] at h
    exact .inr ⟨owner.2, map_eq_error_iff.mp h⟩

/-- A member that is refused leaves everything as it was, if the attempt at its model does. -/
theorem tryMember_hasEffect {α : Type} {attempt : Declaration → Attempt Model α} {change : Change}
    (h : HasEffect attempt change) :
    HasEffect (fun p => tryMember config role p (Registry.onOwner? p (attempt p)))
      (changeOwner config role change) := by
  rintro ⟨r, log⟩ p
  unfold tryMember changeOwner
  rw [EStateM.run_bind, Attempt.run_ofExcept]
  cases checkMember config role p with
  | error rejection => exact .error rejection
  | ok u =>
    dsimp only
    rw [EStateM.run_bind, Registry.onOwner?_run]
    cases ho : r.owner? p with
    | none => exact .error (orphan config role p)
    | some owner =>
      obtain ⟨i, m⟩ := owner
      cases hc : change m p with
      | ok changed =>
        obtain ⟨a, hrun⟩ := h.run_of_ok (t := ⟨m, log⟩) hc
        simp only [hrun, hc]
        exact .ok () _ _
      | error rejection =>
        -- What is put back is the model that was there.
        have hback := Registry.replace_of_owner? ho
        simp only [h.run_of_error (t := ⟨m, log⟩) hc, hc, hback]
        exact .error rejection

/-! ## Property setters -/

/-- A property setter appends an attribute. -/
def attachmentChange (config : Config) : Change := fun m p =>
  (m.attachment config p).map fun a => (m.appendAttributes [a], [m.attachmentEvent a])

theorem attachInPlace_hasEffect (config : Config) :
    HasEffect (Model.attachInPlace config) (attachmentChange config) := by
  rintro ⟨m, log⟩ p
  unfold attachmentChange
  rw [Model.attachInPlace_run]
  cases m.attachment config p with
  | error rejection => exact .error rejection
  | ok a => exact .ok a _ _

/-- A property setter that is refused leaves everything as it was. -/
theorem attachProperty_hasEffect (config : Config) :
    HasEffect (attachProperty config) (changeOwner config .property (attachmentChange config)) :=
  tryMember_hasEffect (attachInPlace_hasEffect config)

/-! ## Reset methods -/

/-- A reset method is appended. -/
def resetChange : Change := fun m p => .ok (m.appendReset p.name, [])

/-- A reset method that is refused leaves everything as it was. -/
theorem addReset_hasEffect (config : Config) :
    HasEffect (addReset config) (changeOwner config .reset resetChange) := by
  refine tryMember_hasEffect fun t p => ?_
  rw [Attempt.run_change]
  exact .silent () _

end Round

end Metamodel
