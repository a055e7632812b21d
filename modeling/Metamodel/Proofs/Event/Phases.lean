import Metamodel.Event

/-!
# Events by phase

The transitions in a log tell in which phase each event was reported. A log in which attachments
stand in one phase and what is reported of overloads in another says all that is known of a round,
phase by phase.

* `phased`: the events with the phases in which they were reported.
* `attachedFields`: the fields that were reported for a generated class.
* `roundLog`: the log of a round, made of what was reported in its phases.
* `phased_roundLog`: where the parts of such a log lie.
-/

namespace Metamodel

namespace Event

/-- The phases that are left and entered. -/
def transition? : Event → Option (Phase × Phase)
  | phaseChanged left entered => some (left, entered)
  | _ => none

/-- The generated class and the field of an attribute that was attached. -/
def attachment? : Event → Option (String × String)
  | attributeAttached model field => some (model.qualifiedName, field)
  | _ => none

/-- The generated class and the field of an overload that was added. -/
def synthesis? : Event → Option (String × String)
  | overloadSynthesized model field => some (model.qualifiedName, field)
  | _ => none

/-- The phase behind an event. -/
def phaseAfter (phase : Phase) : Event → Phase
  | phaseChanged _ entered => entered
  | _ => phase

/-- The events, each with the phase in which it was reported. -/
def phased (phase : Phase) : List Event → List (Phase × Event)
  | [] => []
  | e :: rest => (phase, e) :: phased (e.phaseAfter phase) rest

/-- The fields that were reported as attached to a generated class, in order. -/
def attachedFields (generated : String) (events : List Event) : List String :=
  ((events.filterMap attachment?).filter fun reported => reported.1 = generated).map (·.2)

/-- An attachment is neither a transition nor an overload. -/
theorem plain_of_attachment {e : Event} (h : e.attachment?.isSome = true) :
    e.transition? = none ∧ e.synthesis? = none := by
  cases e with
  | attributeAttached model field => exact ⟨rfl, rfl⟩
  | _ => cases h

/-- Events without transitions lie in one phase. -/
theorem phased_append {events : List Event} (h : ∀ e ∈ events, e.transition? = none)
    (phase : Phase) (rest : List Event) :
    phased phase (events ++ rest) = events.map (phase, ·) ++ phased phase rest := by
  induction events with
  | nil => rfl
  | cons e more ih =>
    obtain ⟨he, hmore⟩ := List.forall_mem_cons.mp h
    have hphase : e.phaseAfter phase = phase := by
      cases e <;> first | rfl | cases he
    rw [List.cons_append, phased, hphase, ih hmore]
    rfl

theorem attachedFields_append (generated : String) (events more : List Event) :
    attachedFields generated (events ++ more) =
      attachedFields generated events ++ attachedFields generated more := by
  simp [attachedFields]

/-- Events without attachments report no field. -/
theorem attachedFields_eq_nil {events : List Event} (h : ∀ e ∈ events, e.attachment? = none)
    (generated : String) : attachedFields generated events = [] := by
  rw [attachedFields, List.filterMap_eq_nil_iff.mpr h]
  rfl

/-! ## Logs -/

/-- The log of a round, phase by phase: what was reported while attributes were attached and while
overloads were derived lies in the phases for this, and nothing else was reported but the start, the
transitions and the end. -/
def roundLog (candidates : Nat) (attachments overloads : List Event) (models diagnostics : Nat) :
    List Event :=
  [roundOpened candidates, phaseChanged .idle .scanningComponents,
    phaseChanged .scanningComponents .scanningProperties] ++ (attachments ++
  ([phaseChanged .scanningProperties .synthesizingOverloads] ++ (overloads ++
  ([phaseChanged .synthesizingOverloads .scanningResets, phaseChanged .scanningResets .emitting,
    phaseChanged .emitting .idle] ++ [roundCompleted models diagnostics]))))

section Log

variable {candidates models diagnostics : Nat} {attachments overloads : List Event}
  (hattachments : ∀ e ∈ attachments, e.attachment?.isSome = true)
  (hoverloads : ∀ e ∈ overloads, e.transition? = none ∧ e.attachment? = none)

include hattachments

theorem filterMap_synthesis_roundLog :
    (roundLog candidates attachments overloads models diagnostics).filterMap synthesis? =
      overloads.filterMap synthesis? := by
  have hnone : attachments.filterMap synthesis? = [] :=
    List.filterMap_eq_nil_iff.mpr fun e he => (plain_of_attachment (hattachments e he)).2
  simp only [roundLog, List.filterMap_append, hnone]
  exact List.append_nil _

include hoverloads

theorem filterMap_transition_roundLog :
    (roundLog candidates attachments overloads models diagnostics).filterMap transition? =
      [(.idle, .scanningComponents), (.scanningComponents, .scanningProperties),
        (.scanningProperties, .synthesizingOverloads), (.synthesizingOverloads, .scanningResets),
        (.scanningResets, .emitting), (.emitting, .idle)] := by
  have hattached : attachments.filterMap transition? = [] :=
    List.filterMap_eq_nil_iff.mpr fun e he => (plain_of_attachment (hattachments e he)).1
  have hderived : overloads.filterMap transition? = [] :=
    List.filterMap_eq_nil_iff.mpr fun e he => (hoverloads e he).1
  simp only [roundLog, List.filterMap_append, hattached, hderived]
  rfl

/-- Attachments lie in the phase in which properties are scanned, and what is reported of overloads
lies in the phase in which they are derived. -/
theorem phased_roundLog :
    phased .idle (roundLog candidates attachments overloads models diagnostics) =
      [(.idle, roundOpened candidates), (.idle, phaseChanged .idle .scanningComponents),
        (.scanningComponents, phaseChanged .scanningComponents .scanningProperties)] ++
      (attachments.map (.scanningProperties, ·) ++
      ([(.scanningProperties, phaseChanged .scanningProperties .synthesizingOverloads)] ++
      (overloads.map (.synthesizingOverloads, ·) ++
        [(.synthesizingOverloads, phaseChanged .synthesizingOverloads .scanningResets),
          (.scanningResets, phaseChanged .scanningResets .emitting),
          (.emitting, phaseChanged .emitting .idle),
          (.idle, roundCompleted models diagnostics)]))) := by
  simp only [roundLog, List.cons_append, List.nil_append, phased, phaseAfter,
    phased_append fun e he => (plain_of_attachment (hattachments e he)).1,
    phased_append fun e he => (hoverloads e he).1]

theorem attached_within_roundLog :
    ∀ p ∈ phased .idle (roundLog candidates attachments overloads models diagnostics),
      p.2.attachment?.isSome = true → p.1 = .scanningProperties := by
  rw [phased_roundLog hattachments hoverloads]
  simp only [List.forall_mem_append, List.forall_mem_map]
  refine ⟨by simp [attachment?], by simp, by simp, fun e he h => ?_, by simp [attachment?]⟩
  rw [(hoverloads e he).2] at h
  cases h

theorem synthesized_within_roundLog :
    ∀ p ∈ phased .idle (roundLog candidates attachments overloads models diagnostics),
      p.2.synthesis?.isSome = true → p.1 = .synthesizingOverloads := by
  rw [phased_roundLog hattachments hoverloads]
  simp only [List.forall_mem_append, List.forall_mem_map]
  refine ⟨by simp [synthesis?], fun e he h => ?_, by simp [synthesis?], by simp,
    by simp [synthesis?]⟩
  rw [(plain_of_attachment (hattachments e he)).2] at h
  cases h

end Log

theorem attachedFields_roundLog {candidates models diagnostics : Nat}
    {attachments overloads : List Event} (hoverloads : ∀ e ∈ overloads, e.attachment? = none)
    (generated : String) :
    attachedFields generated (roundLog candidates attachments overloads models diagnostics) =
      attachedFields generated attachments := by
  simp only [roundLog, attachedFields_append, attachedFields_eq_nil hoverloads]
  exact List.append_nil _

theorem getLast?_roundLog (candidates : Nat) (attachments overloads : List Event)
    (models diagnostics : Nat) :
    (roundLog candidates attachments overloads models diagnostics).getLast? =
      some (roundCompleted models diagnostics) := by
  simp only [roundLog, ← List.append_assoc, List.getLast?_concat]

end Event

end Metamodel
