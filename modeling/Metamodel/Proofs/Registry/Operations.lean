import Metamodel.Proofs.Registry.Index

/-!
# Runs of a registry

A registry goes through registrations, attachments, reset methods, derivations of overloads and
handovers in any order. None of them lets the indexes fall behind the models, so at any time a
component leads to its model and a member to the model of its component.

* `Operation`, `perform`: what can be done with a registry, and what is left of it.
* `Indexed.perform`, `Indexed.performAll`: what one operation and what any run of them keeps.
* `Indexed.register_cases`: a registration that fails changes nothing, and one that succeeds appends
  the model.
* `performAll_consistent`: what holds of a registry after any run from the empty one.
-/

namespace Metamodel

namespace Registry

/-- What can be done with a registry. -/
inductive Operation where
  /-- A model is registered, if it can be. -/
  | register (m : Model)
  /-- The attribute of a property setter is attached, if it has an owner that takes it. -/
  | attach (config : Config) (p : Declaration)
  /-- A reset method is added, if it has an owner. -/
  | addReset (p : Declaration)
  /-- The overloads of all models are derived. -/
  | synthesize (config : Config)
  /-- The models are dropped. -/
  | clear
  /-- The models are handed over. -/
  | takeModels

/-- The registry that an operation leaves, whether it succeeds or not. -/
def perform (r : Registry) : Operation → Registry
  | .register m => ((registerInPlace m).after r).value
  | .attach config p => ((attachInPlace config p).after r).value
  | .addReset p => ((addResetInPlace p).after r).value
  | .synthesize config => r.synthesize config
  | .clear => empty
  | .takeModels => r.takeModels.2

/-- A registration leaves what it comes to, and the registry as it was if it fails. -/
theorem perform_register (r : Registry) (m : Model) :
    r.perform (.register m) = match r.register m with
      | .ok s => s
      | .error _ => r := by
  rw [perform, Attempt.after, registerInPlace_run]
  cases r.register m <;> rfl

/-- The registry after several operations, one after another. -/
def performAll (r : Registry) (operations : List Operation) : Registry :=
  operations.foldl perform r

namespace Indexed

variable {r s : Registry} {m : Model} {config : Config} {p : Declaration} {a : Attribute}

/-- An attachment replaces a model by one with the same keys. -/
theorem attach? (h : r.Indexed) (hs : r.attach? config p = some (.ok (s, m, a))) : s.Indexed := by
  simp only [Registry.attach?_eq, Option.map_eq_some_iff] at hs
  obtain ⟨⟨i, n⟩, ho, hs⟩ := hs
  have hn := (h.owner?_eq_some.mp ho).1
  cases ha : n.attachment config p with
  | error rejection => simp [ha, Except.map] at hs
  | ok b =>
    rw [ha] at hs
    cases hs
    exact h.replace hn rfl rfl

/-- A reset method replaces a model by one with the same keys. -/
theorem addReset? (h : r.Indexed) (hs : r.addReset? p = some (s, m)) : s.Indexed := by
  simp only [Registry.addReset?, Option.map_eq_some_iff] at hs
  obtain ⟨⟨i, n⟩, ho, hs⟩ := hs
  have hn := (h.owner?_eq_some.mp ho).1
  cases hs
  exact h.replace hn rfl rfl

/-- The derivation of overloads keeps all keys. -/
theorem synthesize (h : r.Indexed) (config : Config) : (r.synthesize config).Indexed := by
  refine h.of_keys rfl rfl ?_
  show (r.models.map (·.synthesize config)).map _ = _
  simp [Function.comp_def]

/-- No operation lets the indexes fall behind the models. -/
theorem perform (h : r.Indexed) (operation : Operation) : (r.perform operation).Indexed := by
  cases operation with
  | register m =>
    rw [perform_register]
    cases hs : r.register m with
    | error rejection => exact h
    | ok s => exact h.register hs
  | attach config p =>
    rw [Registry.perform, Attempt.after, attachInPlace_run]
    rcases hs : r.attach? config p with _ | rejection | ⟨s, m, a⟩
    · exact h
    · exact h
    · exact h.attach? hs
  | addReset p =>
    rw [Registry.perform, Attempt.after, addResetInPlace_run]
    rcases hs : r.addReset? p with _ | ⟨s, m⟩
    · exact h
    · exact h.addReset? hs
  | synthesize config => exact h.synthesize config
  | clear => exact .empty
  | takeModels => exact .empty

/-- No run of operations does. -/
theorem performAll (h : r.Indexed) (operations : List Operation) :
    (r.performAll operations).Indexed := by
  induction operations generalizing r with
  | nil => exact h
  | cons operation rest ih => exact ih (h.perform operation)

/-- A registration fails if the generated class or the component is there, and then it leaves the
registry as it was. Otherwise the model stands at the end, and both of its keys are entered. -/
theorem register_cases (h : r.Indexed) (m : Model) :
    ((∃ n ∈ r.models, n.generated.qualifiedName = m.generated.qualifiedName ∨
        n.component = m.component) ∧
      ∃ rejection, r.register m = .error rejection) ∨
    ((∀ n ∈ r.models, n.generated.qualifiedName ≠ m.generated.qualifiedName ∧
        n.component ≠ m.component) ∧
      r.register m = .ok
        { models := r.models ++ [m]
          places := (m.component, r.models.length) :: r.places
          origins := (m.generated.qualifiedName, m.component) :: r.origins }) := by
  by_cases hold : ∃ n ∈ r.models, n.generated.qualifiedName = m.generated.qualifiedName ∨
      n.component = m.component
  · refine .inl ⟨hold, ?_⟩
    cases hs : r.register m with
    | error rejection => exact ⟨rejection, rfl⟩
    | ok s =>
      obtain ⟨hg, hc, -⟩ := h.register_eq_ok.mp hs
      obtain ⟨n, hn, he | he⟩ := hold
      · exact absurd he (hg n hn)
      · exact absurd he (hc n hn)
  · have hg : ∀ n ∈ r.models, n.generated.qualifiedName ≠ m.generated.qualifiedName :=
      fun n hn he => hold ⟨n, hn, .inl he⟩
    have hc : ∀ n ∈ r.models, n.component ≠ m.component := fun n hn he => hold ⟨n, hn, .inr he⟩
    exact .inr ⟨fun n hn => ⟨hg n hn, hc n hn⟩, h.register_eq_ok.mpr ⟨hg, hc, rfl⟩⟩

end Indexed

/-- Whatever is done with a registry, beginning with the empty one, its models and indexes are in
step. No two models have a component or a generated class in common, and the indexes lead to the
models and to nothing else. So a look-up never leads to a place behind the models: it gives the
model of the component, which is the only one, or nothing if there is none. A registration in place
that fails leaves the models and both indexes as they were, and one that succeeds appends the
model. -/
theorem performAll_consistent (operations : List Operation) :
    let r := Registry.empty.performAll operations
    ((r.models.map (·.component)).Nodup ∧
      (r.models.map (·.generated.qualifiedName)).Nodup) ∧
    ((∀ c i, r.places.lookup c = some i ↔ ∃ m, r.models[i]? = some m ∧ m.component = c) ∧
      ∀ g c, r.origins.lookup g = some c ↔
        ∃ m ∈ r.models, m.generated.qualifiedName = g ∧ m.component = c) ∧
    ((∀ c i, r.place? c = some i → i < r.models.length) ∧
      (∀ c m, r.get? c = some m ↔ m ∈ r.models ∧ m.component = c) ∧
      (∀ c, r.get? c = none ↔ ∀ m ∈ r.models, m.component ≠ c) ∧
      (∀ p i m, r.owner? p = some (i, m) ↔
        r.models[i]? = some m ∧ p.enclosing = some m.component) ∧
      ∀ p, r.owner? p = none ↔ ∀ m ∈ r.models, p.enclosing ≠ some m.component) ∧
    ∀ m log, ((∃ n ∈ r.models, n.generated.qualifiedName = m.generated.qualifiedName ∨
          n.component = m.component) ∧
        ∃ rejection, (registerInPlace m).run ⟨r, log⟩ = .error rejection ⟨r, log⟩ ∧
          r.register m = .error rejection ∧ r.perform (.register m) = r) ∨
      ((∀ n ∈ r.models, n.generated.qualifiedName ≠ m.generated.qualifiedName ∧
          n.component ≠ m.component) ∧
        ∃ s, (registerInPlace m).run ⟨r, log⟩ = .ok () ⟨s, log⟩ ∧ r.register m = .ok s ∧
          r.perform (.register m) = s ∧ s.models = r.models ++ [m]) := by
  intro r
  have h : r.Indexed := Indexed.empty.performAll operations
  refine ⟨⟨h.components_nodup, h.generatedNames_nodup⟩, ⟨h.place_iff, h.origin_iff⟩,
    ⟨fun c i => h.lt_of_place?, fun c m => h.get?_eq_some, fun c => h.get?_eq_none,
      fun p i m => h.owner?_eq_some, fun p => h.owner?_eq_none⟩, fun m log => ?_⟩
  rcases h.register_cases m with ⟨hold, rejection, hs⟩ | ⟨hnew, hs⟩
  · refine .inl ⟨hold, rejection, ?_, hs, ?_⟩
    · rw [registerInPlace_run, hs]
    · rw [perform_register, hs]
  · refine .inr ⟨hnew, _, ?_, hs, ?_, rfl⟩
    · rw [registerInPlace_run, hs]
    · rw [perform_register, hs]

end Registry

end Metamodel
