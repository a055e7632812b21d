import Metamodel.Round

/-!
# Sessions

A session runs one round after another. Its emitter and its sink keep their state from round to
round, and the rounds are counted; nothing else is shared between rounds.
-/

namespace Metamodel

/-- A machine that takes diagnostics, and may report on them. -/
structure Sink (τ : Type) where
  /-- The move for a diagnostic. -/
  report : τ → Diagnostic → τ × List Event

namespace Sink

/-- The sink that collects diagnostics. -/
def collecting : Sink (List Diagnostic) where
  report collected d := (collected ++ [d], [])

/-- The sink that counts diagnostics and reports each of them. -/
def counting : Sink Nat where
  report n d := (n + 1, [.diagnosticReported d])

/-- The moves for several diagnostics. -/
def reportAll {τ : Type} (sink : Sink τ) (t : τ) : List Diagnostic → τ × List Event
  | [] => (t, [])
  | d :: rest =>
    let (t, first) := sink.report t d
    let (t, others) := sink.reportAll t rest
    (t, first ++ others)

end Sink

/-- A session between two rounds. -/
structure Session (σ τ : Type) where
  /-- The configuration of all rounds. -/
  config : Config
  /-- What takes the models. -/
  emitter : Emitter σ
  /-- What takes the diagnostics. -/
  sink : Sink τ
  /-- The state of the emitter. -/
  emitterState : σ
  /-- The state of the sink. -/
  sinkState : τ
  /-- The number of rounds so far. -/
  rounds : Nat

namespace Session

variable {σ τ : Type}

/-- A session before its first round. -/
def start (config : Config) (emitter : Emitter σ) (s : σ) (sink : Sink τ) (t : τ) :
    Session σ τ where
  config := config
  emitter := emitter
  sink := sink
  emitterState := s
  sinkState := t
  rounds := 0

/-- The session after one more round, with the models of that round and what was reported. -/
def runRound (session : Session σ τ) (input : Candidates) : Session σ τ × List Model × List Event :=
  let number := session.rounds + 1
  let (report, events, s) := Round.run session.config session.emitter session.emitterState input
  let (t, reported) := session.sink.reportAll session.sinkState report.diagnostics
  ({ session with emitterState := s, sinkState := t, rounds := number },
    report.models, .roundStarted number :: (events ++ reported))

end Session

end Metamodel
