import Metamodel.Event
import Metamodel.Rejection

/-!
# Attempts

An attempt changes a value in place, reports what it does, and may fail. What it has changed and
reported before a failure stays. So it is a fact about an attempt, and not about attempts as such,
that a failure changes nothing.

* `Attempt.onPart`: an attempt at a part of a value, as a change of the value.
* `Attempt.after`, `Attempt.outcome`: what an attempt leaves, and what it comes to.
* `Attempt.run_current`, `Attempt.run_change`, `Attempt.run_report`, `Attempt.run_reportAll`,
  `Attempt.run_ofExcept`: what the steps of attempts do.
-/

namespace Metamodel

/-- A value that is changed in place, with what was reported on the way. -/
structure Traced (σ : Type) where
  /-- The value. -/
  value : σ
  /-- What was reported, in order. -/
  events : List Event
deriving DecidableEq, Repr

/-- A change of a value in place, which may fail. -/
abbrev Attempt (σ α : Type) := EStateM Rejection (Traced σ) α

namespace Attempt

variable {σ τ α : Type}

/-! ## Steps -/

/-- The value as it is by now. -/
def current : Attempt σ σ := do
  return (← get).value

/-- The value is changed. -/
def change (f : σ → σ) : Attempt σ Unit :=
  modify fun t => { t with value := f t.value }

/-- Something is reported. -/
def report (e : Event) : Attempt σ Unit :=
  modify fun t => { t with events := t.events ++ [e] }

/-- Several things are reported, one after another. -/
def reportAll (events : List Event) : Attempt σ Unit :=
  forM events report

/-- An attempt at a part of a value. The part is put back as the attempt leaves it, after a failure
as well. -/
def onPart (part : τ) (putBack : σ → τ → σ) (attempt : Attempt τ α) : Attempt σ α := fun t =>
  match attempt.run ⟨part, t.events⟩ with
  | .ok a left => .ok a ⟨putBack t.value left.value, left.events⟩
  | .error rejection left => .error rejection ⟨putBack t.value left.value, left.events⟩

/-! ## Results -/

/-- What an attempt leaves, whether it succeeds or not. -/
def after (attempt : Attempt σ α) (s : σ) : Traced σ :=
  match attempt.run ⟨s, []⟩ with
  | .ok _ left => left
  | .error _ left => left

/-- What an attempt comes to, without what a failure leaves. -/
def outcome (attempt : Attempt σ α) (s : σ) : Except Rejection (σ × α) :=
  match attempt.run ⟨s, []⟩ with
  | .ok a left => .ok (left.value, a)
  | .error rejection _ => .error rejection

/-! ## Runs -/

@[simp] theorem run_current (t : Traced σ) : (current : Attempt σ σ).run t = .ok t.value t := rfl

@[simp] theorem run_change (f : σ → σ) (t : Traced σ) :
    (change f).run t = .ok () ⟨f t.value, t.events⟩ := rfl

@[simp] theorem run_report (e : Event) (t : Traced σ) :
    (report e).run t = .ok () ⟨t.value, t.events ++ [e]⟩ := rfl

@[simp] theorem run_reportAll (events : List Event) (t : Traced σ) :
    (reportAll events).run t = .ok () ⟨t.value, t.events ++ events⟩ := by
  unfold reportAll
  induction events generalizing t with
  | nil => simp
  | cons e rest ih =>
    rw [List.forM_cons, EStateM.run_bind, run_report]
    simp only [ih, List.append_assoc, List.singleton_append]

theorem run_onPart (part : τ) (putBack : σ → τ → σ) (attempt : Attempt τ α) (t : Traced σ) :
    (attempt.onPart part putBack).run t =
      match attempt.run ⟨part, t.events⟩ with
      | .ok a left => .ok a ⟨putBack t.value left.value, left.events⟩
      | .error rejection left => .error rejection ⟨putBack t.value left.value, left.events⟩ := rfl

/-- A result that is there already changes nothing. -/
theorem run_ofExcept (result : Except Rejection α) (t : Traced σ) :
    (ofExcept result : Attempt σ α).run t =
      match result with
      | .ok a => .ok a t
      | .error rejection => .error rejection t := by
  cases result <;> rfl

end Attempt

end Metamodel
