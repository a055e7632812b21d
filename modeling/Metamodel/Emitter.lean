import Metamodel.Model.Basic
import Metamodel.Rejection

/-!
# Emitters

An emitter takes the models of a round one by one. It is a machine: a state, a move at the start of
a round and a move for every model, which may refuse the model.
-/

namespace Metamodel

/-- A machine that takes models. -/
structure Emitter (σ : Type) where
  /-- The move before the first model of a round. -/
  beginRound : σ → σ
  /-- The move for a model. -/
  emit : σ → Model → σ × Except Refusal Unit

namespace Emitter

/-- The emitter that takes every model and does nothing with it. -/
def null : Emitter Unit where
  beginRound s := s
  emit s _ := (s, .ok ())

/-- An emitter behind a gate: a model that the gate refuses does not reach it. -/
def gated {σ : Type} (gate : Model → Option Refusal) (inner : Emitter σ) : Emitter σ where
  beginRound := inner.beginRound
  emit s m :=
    match gate m with
    | some refusal => (s, .error refusal)
    | none => inner.emit s m

/-- The outcome of handing models over, one after another: the models that were taken, and for
each refused model the refusal. -/
def emitAll {σ : Type} (emitter : Emitter σ) (s : σ) :
    List Model → σ × List Model × List (Model × Refusal)
  | [] => (s, [], [])
  | m :: rest =>
    let (s, outcome) := emitter.emit s m
    let (s, taken, refused) := emitter.emitAll s rest
    match outcome with
    | .ok () => (s, m :: taken, refused)
    | .error refusal => (s, taken, (m, refusal) :: refused)

end Emitter

end Metamodel
