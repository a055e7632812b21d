import Metamodel.Emitter
import Metamodel.Registry
import Metamodel.Rules.Component

/-!
# Rounds

A round turns candidates into models. It goes through its phases once: components are registered,
attributes are attached, overloads are derived, reset methods are added, and the models are handed
over. A candidate that breaks a rule becomes a diagnostic, and the round goes on without it.

The step for a candidate changes the registry in place. The round goes on with the registry that the
step leaves, also if it fails.

* `scan_nil`, `scan_cons`: candidates are taken one by one, in order.
-/

namespace Metamodel

/-- What a round leaves behind. -/
structure Report where
  /-- The models that were handed over, in order. -/
  models : List Model
  /-- The candidates that were given up and the models that were refused, in order. -/
  diagnostics : List Diagnostic
deriving DecidableEq, Repr

namespace Report

/-- The first model whose generated class has an innermost name. -/
def model? (r : Report) (name : String) : Option Model :=
  r.models.find? (·.generatedClassName = name)

/-- Nothing was given up. -/
def isClean (r : Report) : Bool :=
  r.diagnostics.isEmpty

end Report

/-- A round on its way. -/
structure Progress where
  /-- The phase of the round. -/
  phase : Phase
  /-- The models so far. -/
  registry : Registry
  /-- The candidates that were given up so far. -/
  diagnostics : List Diagnostic
  /-- What was reported so far. -/
  events : List Event
deriving DecidableEq, Repr

namespace Progress

/-- A round that is opened for candidates. -/
def start (input : Candidates) : Progress where
  phase := .idle
  registry := .empty
  diagnostics := []
  events := [.roundOpened input.size]

/-- The round in its next phase. -/
def advance (p : Progress) : Progress :=
  { p with
    phase := p.phase.next
    events := p.events ++ [.phaseChanged p.phase p.phase.next] }

/-- The round after a step for one candidate. It goes on with what the step leaves. -/
def take (step : Declaration → Attempt Registry Unit) (p : Progress) (d : Declaration) : Progress :=
  match (step d).run ⟨p.registry, p.events⟩ with
  | .ok () left => { p with registry := left.value, events := left.events }
  | .error rejection left =>
    { p with
      registry := left.value
      events := left.events
      diagnostics := p.diagnostics ++ [rejection.diagnose d] }

/-- The round after a step for each of several candidates. -/
def scan (step : Declaration → Attempt Registry Unit) (candidates : List Declaration)
    (p : Progress) : Progress :=
  candidates.foldl (take step) p

/-- Without candidates nothing happens. -/
@[simp] theorem scan_nil (step : Declaration → Attempt Registry Unit) (p : Progress) :
    scan step [] p = p := rfl

/-- The first candidate is taken first. -/
@[simp] theorem scan_cons (step : Declaration → Attempt Registry Unit) (d : Declaration)
    (rest : List Declaration) (p : Progress) :
    scan step (d :: rest) p = scan step rest (p.take step d) := rfl

end Progress

namespace Round

/-! ## Steps -/

/-- A component is checked and registered. -/
def registerComponent (config : Config) (d : Declaration) : Attempt Registry Unit := do
  ofExcept (checkComponent config d)
  Registry.registerInPlace (.ofComponent config d)

/-- A member of a role is checked, and then a change is tried of the model of its component. -/
def tryMember {α : Type} (config : Config) (role : MemberRole) (d : Declaration)
    (change : Attempt Registry (Option α)) : Attempt Registry Unit := do
  ofExcept (checkMember config role d)
  match ← change with
  | some _ => return
  | none => throw (orphan config role d)

/-- A property setter is checked, and its attribute is attached to the model of its component. -/
def attachProperty (config : Config) (d : Declaration) : Attempt Registry Unit :=
  tryMember config .property d (Registry.attachInPlace config d)

/-- A reset method is checked and added to the model of its component. -/
def addReset (config : Config) (d : Declaration) : Attempt Registry Unit :=
  tryMember config .reset d (Registry.addResetInPlace d)

/-- The overloads of all models are derived. -/
def synthesize (config : Config) (p : Progress) : Progress :=
  { p with
    registry := p.registry.synthesize config
    events := p.events ++ p.registry.synthesisEvents config }

/-! ## Rounds -/

/-- The round up to the point where its models can be handed over. -/
def build (config : Config) (input : Candidates) : Progress :=
  let p := (Progress.start input).advance
  let p := (p.scan (registerComponent config) input.components).advance
  let p := (p.scan (attachProperty config) input.properties).advance
  let p := (synthesize config p).advance
  (p.scan (addReset config) input.resets).advance

/-- The diagnostic of a refused model, which is about its component. -/
def refusalDiagnostic (m : Model) (refusal : Refusal) : Diagnostic :=
  (Rejection.emission refusal).atLocation ⟨m.component, m.componentType.name⟩

/-- The outcome of a round: its report, what was reported on the way, and the state in which the
emitter is left. -/
def run {σ : Type} (config : Config) (emitter : Emitter σ) (s : σ) (input : Candidates) :
    Report × List Event × σ :=
  let p := build config input
  let (s, taken, refused) := emitter.emitAll (emitter.beginRound s) p.registry.models
  let report : Report :=
    { models := taken
      diagnostics := p.diagnostics ++ refused.map fun (m, refusal) => refusalDiagnostic m refusal }
  let events := p.advance.events ++
    [.roundCompleted report.models.length report.diagnostics.length]
  (report, events, s)

/-- The report of a round whose models are taken by no one. -/
def process (config : Config) (input : Candidates) : Report :=
  (run config .null () input).1

end Round

end Metamodel
