import Metamodel.Proofs.Round.Local

/-!
# Handing models over

At its end a round hands its models over to an emitter, which may be in any state and refuse any of
them.

* `Emitter.outcomes`: what the emitter says to each model, in the state that those before it left.
* `Emitter.emitAll_eq`: the models that are handed over are parted by what the emitter says.
* `Emitter.recorded`: an emitter that writes its calls down.
-/

namespace Metamodel

namespace Emitter

variable {σ : Type}

/-- The state after models were handed over, one after another. -/
def after (emitter : Emitter σ) (s : σ) (models : List Model) : σ :=
  models.foldl (fun s m => (emitter.emit s m).1) s

/-- What the emitter says to each of several models. Each is handed over in the state in which
those before it left the emitter, whatever the emitter said to them. -/
def outcomes (emitter : Emitter σ) (s : σ) (models : List Model) : List (Except Refusal Unit) :=
  models.mapIdx fun i m => (emitter.emit (emitter.after s (models.take i)) m).2

/-- The refusal, if the emitter did refuse. -/
def refusal? : Except Refusal Unit → Option Refusal
  | .ok () => none
  | .error refusal => some refusal

theorem outcomes_cons (emitter : Emitter σ) (s : σ) (m : Model) (rest : List Model) :
    emitter.outcomes s (m :: rest) =
      (emitter.emit s m).2 :: emitter.outcomes (emitter.emit s m).1 rest := by
  simp [outcomes, after, List.mapIdx_cons]

theorem length_outcomes (emitter : Emitter σ) (s : σ) (models : List Model) :
    (emitter.outcomes s models).length = models.length := by
  simp [outcomes]

/-- Models that are handed over are parted by what the emitter says to them. -/
theorem emitAll_eq (emitter : Emitter σ) (s : σ) (models : List Model) :
    emitter.emitAll s models = (emitter.after s models,
      ((models.zip (emitter.outcomes s models)).filter fun p => (refusal? p.2).isNone).map (·.1),
      (models.zip (emitter.outcomes s models)).filterMap fun p =>
        (refusal? p.2).map fun refusal => (p.1, refusal)) := by
  induction models generalizing s with
  | nil => rfl
  | cons m rest ih =>
    have hafter : emitter.after s (m :: rest) = emitter.after (emitter.emit s m).1 rest := rfl
    rw [outcomes_cons, hafter]
    cases he : emitter.emit s m with
    | mk t outcome =>
      rw [emitAll, he]
      simp only [ih]
      cases outcome with
      | ok u => simp [refusal?]
      | error refusal => simp [refusal?]

/-! ## Calls -/

/-- A call of an emitter. -/
inductive Call where
  /-- The call at the start of a round. -/
  | beginRound
  /-- The call for a model. -/
  | emit (m : Model)

/-- The emitter that writes its calls down, in order, and is the same otherwise. -/
def recorded (emitter : Emitter σ) : Emitter (σ × List Call) where
  beginRound s := (emitter.beginRound s.1, s.2 ++ [.beginRound])
  emit s m := (((emitter.emit s.1 m).1, s.2 ++ [.emit m]), (emitter.emit s.1 m).2)

/-- Each of several models is one call, and to write the calls down changes nothing else. -/
theorem emitAll_recorded (emitter : Emitter σ) (s : σ) (calls : List Call) (models : List Model) :
    emitter.recorded.emitAll (s, calls) models =
      (((emitter.emitAll s models).1, calls ++ models.map .emit),
        (emitter.emitAll s models).2) := by
  induction models generalizing s calls with
  | nil => simp [emitAll]
  | cons m rest ih =>
    have he : emitter.recorded.emit (s, calls) m =
        (((emitter.emit s m).1, calls ++ [.emit m]), (emitter.emit s m).2) := rfl
    rw [emitAll, emitAll, he]
    simp only [ih]
    cases (emitter.emit s m).2 with
    | ok u => simp
    | error refusal => simp

end Emitter

namespace Round

variable {σ : Type}

/-- What the emitter of a round says to each model that the round has made. -/
def replies (config : Config) (emitter : Emitter σ) (s : σ) (input : Candidates) :
    List (Except Refusal Unit) :=
  emitter.outcomes (emitter.beginRound s) (process config input).models

/-- A round with an emitter makes the models and diagnostics of the round without one, and then
hands the models over. -/
theorem run_eq_emitAll (config : Config) (emitter : Emitter σ) (s : σ) (input : Candidates) :
    (run config emitter s input).2.2 =
        (emitter.emitAll (emitter.beginRound s) (process config input).models).1 ∧
      (run config emitter s input).1.models =
        (emitter.emitAll (emitter.beginRound s) (process config input).models).2.1 ∧
      (run config emitter s input).1.diagnostics = (process config input).diagnostics ++
        (emitter.emitAll (emitter.beginRound s) (process config input).models).2.2.map
          fun p => refusalDiagnostic p.1 p.2 := by
  rw [process_eq]
  exact ⟨rfl, rfl, rfl⟩

/-- To write the calls of the emitter down changes nothing else in a round. -/
theorem run_recorded (config : Config) (emitter : Emitter σ) (s : σ) (input : Candidates) :
    run config emitter.recorded (s, []) input =
      ((run config emitter s input).1, (run config emitter s input).2.1,
        (run config emitter s input).2.2,
        .beginRound :: (process config input).models.map .emit) := by
  have hbegin : emitter.recorded.beginRound (s, []) = (emitter.beginRound s, [.beginRound]) := rfl
  rw [process_eq]
  simp only [run, hbegin, Emitter.emitAll_recorded]
  rfl

/-- A refused model is reported at the declaration of its component. -/
theorem refusalDiagnostic_localModel (config : Config) (input : Candidates) (d : Declaration)
    (refusal : Refusal) : refusalDiagnostic (localModel config input d) refusal =
      (Rejection.emission refusal).diagnose d := by
  rw [localModel_eq]
  rfl

/-- An emitter only filters the models of a round and adds reports of its own. It is called once to
begin the round and then once for each model, in order and whatever it says, always in the state in
which the call before left it. The round reports the models that were taken, and behind its own
diagnostics one for each model that was refused, at the component that the model was made for. -/
theorem emission_filters_and_reports (config : Config) (emitter : Emitter σ) (s : σ)
    (input : Candidates) :
    run config emitter.recorded (s, []) input =
        ((run config emitter s input).1, (run config emitter s input).2.1,
          (run config emitter s input).2.2,
          .beginRound :: (process config input).models.map .emit) ∧
      (run config emitter s input).2.2 =
        emitter.after (emitter.beginRound s) (process config input).models ∧
      (replies config emitter s input).length = (process config input).models.length ∧
      (run config emitter s input).1.models =
        (((process config input).models.zip (replies config emitter s input)).filter
          fun p => (Emitter.refusal? p.2).isNone).map (·.1) ∧
      (process config input).models =
        (keptComponents config input.components).map (localModel config input) ∧
      (keptComponents config input.components).Sublist input.components ∧
      (run config emitter s input).1.diagnostics = (process config input).diagnostics ++
        ((keptComponents config input.components).zip (replies config emitter s input)).filterMap
          fun p => (Emitter.refusal? p.2).map fun refusal =>
            ⟨.ofDeclaration p.1, .internal, (Rejection.emission refusal).message⟩ := by
  obtain ⟨hstate, hmodels, hdiagnostics⟩ := run_eq_emitAll config emitter s input
  rw [Emitter.emitAll_eq] at hstate hmodels hdiagnostics
  refine ⟨run_recorded config emitter s input, hstate, emitter.length_outcomes _ _, hmodels,
    process_models config input, ?_, ?_⟩
  · rw [keptComponents_eq_accepted]
    exact Judgement.accepted_sublist _ _ _
  · rw [hdiagnostics, List.map_filterMap, ← replies, process_models, List.zip_map_left,
      List.filterMap_map]
    congr 2
    funext ⟨d, reply⟩
    cases reply with
    | ok u => rfl
    | error refusal => exact congrArg some (refusalDiagnostic_localModel config input d refusal)

end Round

end Metamodel
