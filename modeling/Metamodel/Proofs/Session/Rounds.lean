import Metamodel.Manifest
import Metamodel.Proofs.Round.Emission
import Metamodel.Session

/-!
# Rounds of one session

A session keeps the state of its emitter and of its sink from round to round. If the emitter
collects models behind a gate and the sink collects diagnostics, nothing of a round can be seen in a
later one, except in what the sink has collected and in the number of rounds.

* `emitAll_gated`: what a gated manifest takes and holds.
* `run_gated`: a round with a gated manifest does not depend on what the manifest held before.
* `runAll_induction`: what one round keeps, any rounds keep.
* `HasRun.runRound`, `HasRun.runAll`: what a session is after one more round, and after any rounds.
* `rounds_independent`: a round in a session does what it would do in a session of its own.
-/

namespace Metamodel

namespace Manifest

/-- The emitter that collects the models of the last round that pass a gate. -/
abbrev gatedEmitter (gate : Model → Option Refusal) : Emitter Manifest :=
  .gated gate emitter

variable (gate : Model → Option Refusal)

/-- A gated manifest takes the models that pass the gate, and holds them behind those that it held.
The others are refused for the reason that the gate gives. -/
theorem emitAll_gated (manifest : Manifest) (models : List Model) :
    (gatedEmitter gate).emitAll manifest models =
      (manifest ++ models.filter fun m => (gate m).isNone, models.filter fun m => (gate m).isNone,
        models.filterMap fun m => (gate m).map fun refusal => (m, refusal)) := by
  induction models generalizing manifest with
  | nil => simp [Emitter.emitAll]
  | cons m rest ih =>
    rw [Emitter.emitAll]
    cases hg : gate m with
    | none =>
      have he : (gatedEmitter gate).emit manifest m = (manifest ++ [m], .ok ()) := by
        simp [Emitter.gated, emitter, hg]
      simp [he, ih, hg]
    | some refusal =>
      have he : (gatedEmitter gate).emit manifest m = (manifest, .error refusal) := by
        simp [Emitter.gated, hg]
      simp [he, ih, hg]

end Manifest

/-- The sink that collects keeps diagnostics in order and reports nothing. -/
theorem Sink.reportAll_collecting (collected diagnostics : List Diagnostic) :
    Sink.collecting.reportAll collected diagnostics = (collected ++ diagnostics, []) := by
  induction diagnostics generalizing collected with
  | nil => simp [reportAll]
  | cons d rest ih =>
    have hd : Sink.collecting.report collected d = (collected ++ [d], []) := rfl
    simp [reportAll, hd, ih]

namespace Session

variable {σ τ : Type}

/-- The session after several rounds, one after another. -/
def runAll (session : Session σ τ) (inputs : List Candidates) : Session σ τ :=
  inputs.foldl (fun session input => (session.runRound input).1) session

/-- What one round keeps of what is said of a session and the rounds behind it, all rounds keep. -/
theorem runAll_induction {P : List Candidates → Session σ τ → Prop}
    (hround : ∀ {earlier session}, P earlier session → ∀ input,
      P (earlier ++ [input]) (session.runRound input).1)
    {earlier : List Candidates} {session : Session σ τ} (h : P earlier session)
    (inputs : List Candidates) : P (earlier ++ inputs) (session.runAll inputs) := by
  induction inputs generalizing earlier session with
  | nil => simpa [runAll] using h
  | cons input rest ih =>
    rw [List.append_cons]
    exact ih (hround h input)

/-- A session before its first round, with a gated manifest that holds some models and a sink that
has collected some diagnostics. -/
def startGated (config : Config) (gate : Model → Option Refusal) (manifest : Manifest)
    (collected : List Diagnostic) : Session Manifest (List Diagnostic) :=
  .start config (Manifest.gatedEmitter gate) manifest .collecting collected

/-- The report of a round with an empty manifest behind a gate. -/
def gatedReport (config : Config) (gate : Model → Option Refusal) (input : Candidates) : Report :=
  (Round.run config (Manifest.gatedEmitter gate) [] input).1

variable {config : Config} {gate : Model → Option Refusal} {collected : List Diagnostic}
  {earlier : List Candidates} {session : Session Manifest (List Diagnostic)}

/-- The models that are reported are those of the round that pass the gate. -/
theorem gatedReport_models (config : Config) (gate : Model → Option Refusal) (input : Candidates) :
    (gatedReport config gate input).models =
      (Round.process config input).models.filter fun m => (gate m).isNone := by
  rw [gatedReport, (Round.run_eq_emitAll config _ [] input).2.1, Manifest.emitAll_gated]

/-- What is reported are the candidates that were given up in the round, and behind them the models
that the gate refuses. -/
theorem gatedReport_diagnostics (config : Config) (gate : Model → Option Refusal)
    (input : Candidates) :
    (gatedReport config gate input).diagnostics = (Round.process config input).diagnostics ++
      (Round.process config input).models.filterMap fun m =>
        (gate m).map (Round.refusalDiagnostic m) := by
  rw [gatedReport, (Round.run_eq_emitAll config _ [] input).2.2, Manifest.emitAll_gated,
    List.map_filterMap]
  simp only [Option.map_map, Function.comp_def]

/-- The manifest is emptied at the start of a round: what it held before has no influence, and in
the end it holds the models that the round reports. -/
theorem run_gated (config : Config) (gate : Model → Option Refusal) (manifest : Manifest)
    (input : Candidates) :
    (Round.run config (Manifest.gatedEmitter gate) manifest input).1 =
        gatedReport config gate input ∧
      (Round.run config (Manifest.gatedEmitter gate) manifest input).2.2 =
        (gatedReport config gate input).models := by
  refine ⟨rfl, ?_⟩
  rw [gatedReport_models, (Round.run_eq_emitAll config _ manifest input).1, Manifest.emitAll_gated]
  rfl

/-- What a session is between two rounds: it differs from its start in the manifest, in the
diagnostics of the rounds behind it, and in their number. -/
structure HasRun (config : Config) (gate : Model → Option Refusal) (collected : List Diagnostic)
    (earlier : List Candidates) (session : Session Manifest (List Diagnostic)) : Prop where
  config_eq : session.config = config
  emitter_eq : session.emitter = Manifest.gatedEmitter gate
  sink_eq : session.sink = .collecting
  sinkState : session.sinkState =
    collected ++ earlier.flatMap fun input => (gatedReport config gate input).diagnostics
  rounds : session.rounds = earlier.length

namespace HasRun

theorem start (config : Config) (gate : Model → Option Refusal) (manifest : Manifest)
    (collected : List Diagnostic) :
    HasRun config gate collected [] (startGated config gate manifest collected) :=
  ⟨rfl, rfl, rfl, (List.append_nil _).symm, rfl⟩

/-- One more round returns the models of its report, leaves them in the manifest, and hands its
diagnostics to the sink. -/
theorem runRound (h : HasRun config gate collected earlier session) (input : Candidates) :
    HasRun config gate collected (earlier ++ [input]) (session.runRound input).1 ∧
      (session.runRound input).2.1 = (gatedReport config gate input).models ∧
      (session.runRound input).1.emitterState = (gatedReport config gate input).models := by
  obtain ⟨hreport, hmanifest⟩ := run_gated config gate session.emitterState input
  obtain ⟨rfl, hemitter, hsink, hstate, hrounds⟩ := h
  simp only [Session.runRound, hemitter, hsink, hreport, hmanifest, Sink.reportAll_collecting,
    and_true]
  refine ⟨rfl, rfl, rfl, ?_, ?_⟩
  · simp [hstate]
  · simp [hrounds]

theorem runAll (h : HasRun config gate collected earlier session) (inputs : List Candidates) :
    HasRun config gate collected (earlier ++ inputs) (session.runAll inputs) :=
  runAll_induction (fun h input => (h.runRound input).1) h inputs

end HasRun

/-- A session has no memory of its rounds but the diagnostics that its sink has collected and their
number. Whatever was run before and whatever the manifest held, a round returns the models that it
returns as the only round of a session, which are those that pass the gate, and then the manifest
holds these and no others. The sink holds the diagnostics of the reports of all rounds, in their
order. They are what the sink of a session with that round only holds: a diagnostic for each
candidate that was given up, and one for each model that the gate refuses. -/
theorem rounds_independent (config : Config) (gate : Model → Option Refusal) (manifest : Manifest)
    (collected : List Diagnostic) (earlier : List Candidates) (input : Candidates) :
    let fresh := startGated config gate [] []
    let round := ((startGated config gate manifest collected).runAll earlier).runRound input
    round.2.1 = (fresh.runRound input).2.1 ∧
      round.2.1 = (Round.process config input).models.filter (fun m => (gate m).isNone) ∧
      round.1.emitterState = round.2.1 ∧
      round.1.sinkState = collected ++
        (earlier ++ [input]).flatMap (fun input => (gatedReport config gate input).diagnostics) ∧
      (∀ input, (fresh.runRound input).1.sinkState = (gatedReport config gate input).diagnostics ∧
        (gatedReport config gate input).diagnostics = (Round.process config input).diagnostics ++
          (Round.process config input).models.filterMap fun m =>
            (gate m).map (Round.refusalDiagnostic m)) ∧
      round.1.rounds = earlier.length + 1 := by
  intro fresh round
  have hfresh := fun input => (HasRun.start config gate [] []).runRound input
  obtain ⟨hrun, hmodels, hmanifest⟩ :=
    ((HasRun.start config gate manifest collected).runAll earlier).runRound input
  refine ⟨hmodels.trans (hfresh input).2.1.symm, ?_, hmanifest.trans hmodels.symm, ?_,
    fun input => ⟨?_, gatedReport_diagnostics config gate input⟩, ?_⟩
  · exact hmodels.trans (gatedReport_models config gate input)
  · simpa only [List.nil_append] using hrun.sinkState
  · simpa using (hfresh input).1.sinkState
  · simpa using hrun.rounds

end Session

end Metamodel
