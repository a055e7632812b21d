import Metamodel.Proofs.Event.Phases
import Metamodel.Proofs.Results
import Metamodel.Proofs.Round.Accounting
import Metamodel.Proofs.Round.Emission

/-!
# The log of a round

A round reports what it does while it goes on. Its log agrees with what it leaves behind: every
phase is entered once, attributes are reported in the phase in which they are attached and overloads
in the phase in which they are derived, and what is reported for a generated class is what its model
holds.

* `Progress.exists_events_append`: a scan only adds events of its steps.
* `Progress.Logged`: for every model, the attachments that were reported are those of its fields.
* `run_events`: the log of a round, phase by phase.
* `handed`: the models that the emitter of a round is given.
* `log_faithful`: what the log says of the phases, the models and the report.
-/

namespace Metamodel

/-- The model that a call of an emitter is for. -/
def Emitter.Call.model? : Emitter.Call → Option Model
  | beginRound => none
  | emit m => some m

/-! ## Scans -/

namespace Progress

variable {step : Declaration → Attempt Registry Unit} {effect : Effect Registry}

/-- A scan adds events that its steps report, and no others. -/
theorem exists_events_append {P : Event → Prop} (hstep : HasEffect step effect)
    (hevents : ∀ {r d s events}, effect r d = .ok (s, events) → ∀ e ∈ events, P e)
    (p : Progress) (ds : List Declaration) :
    ∃ more, (p.scan step ds).events = p.events ++ more ∧ ∀ e ∈ more, P e := by
  refine exists_scan_append (·.events) (fun q d => ?_) p ds
  cases he : effect q.registry d with
  | error rejection =>
    rw [take_of_error hstep he]
    exact ⟨[], by simp, by simp⟩
  | ok changed =>
    rw [take_of_ok hstep he]
    exact ⟨changed.2, rfl, hevents he⟩

/-- A scan whose steps report nothing adds no events. -/
theorem scan_events_of_silent (hstep : HasEffect step effect)
    (hevents : ∀ {r d s events}, effect r d = .ok (s, events) → events = [])
    (p : Progress) (ds : List Declaration) : (p.scan step ds).events = p.events := by
  obtain ⟨more, hmore, hnone⟩ := p.exists_events_append (P := fun _ => False) hstep
    (fun h e he => by rw [hevents h] at he; cases he) ds
  rw [hmore, List.eq_nil_iff_forall_not_mem.mpr hnone, List.append_nil]

end Progress

namespace Round

variable {config : Config} {r s : Registry} {d : Declaration} {events : List Event}
  {input : Candidates}

/-! ## Steps -/

theorem events_of_componentEffect (h : componentEffect config r d = .ok (s, events)) :
    events = [] := by
  obtain ⟨u, -, h⟩ := bind_eq_ok_iff.mp h
  obtain ⟨registry, -, h⟩ := map_eq_ok_iff.mp h
  cases h
  rfl

theorem events_of_resetChange
    (h : changeOwner config .reset resetChange r d = .ok (s, events)) : events = [] := by
  obtain ⟨i, m, n, -, hc, -⟩ := changeOwner_eq_ok h
  cases hc
  rfl

/-- A property setter that is attached appends its attribute to one model, and this is reported. -/
theorem attachmentChange_eq_ok
    (h : changeOwner config .property (attachmentChange config) r d = .ok (s, events)) :
    ∃ i m a, r.owner? d = some (i, m) ∧ s = r.replace i (m.appendAttributes [a]) ∧
      events = [m.attachmentEvent a] := by
  obtain ⟨i, m, n, ho, hc, rfl⟩ := changeOwner_eq_ok h
  obtain ⟨a, -, ha⟩ := map_eq_ok_iff.mp hc
  cases ha
  exact ⟨i, m, a, ho, rfl, rfl⟩

theorem isSome_attachment_of_attachmentChange
    (h : changeOwner config .property (attachmentChange config) r d = .ok (s, events)) :
    ∀ e ∈ events, e.attachment?.isSome = true := by
  obtain ⟨i, m, a, -, -, rfl⟩ := attachmentChange_eq_ok h
  exact List.forall_mem_singleton.mpr rfl

end Round

/-! ## What is attached -/

/-- The names of generated classes lead to one place. -/
theorem Registry.Indexed.place_of_generated {r : Registry} (h : r.Indexed) {i j : Nat} {m n : Model}
    (hi : r.models[i]? = some m) (hj : r.models[j]? = some n)
    (hg : m.generated.qualifiedName = n.generated.qualifiedName) : i = j := by
  have hlt : i < (r.models.map (·.generated.qualifiedName)).length := by
    rw [List.length_map]
    exact (List.getElem?_eq_some_iff.mp hi).1
  exact (List.getElem?_inj hlt h.generatedNames_nodup).mp (by simp [hi, hj, hg])

/-- The attachments that were reported for the generated class of a model are those of its fields,
in order, and this is so for all models. -/
structure Progress.Logged (p : Progress) : Prop where
  indexed : p.registry.Indexed
  attachedFields : ∀ m ∈ p.registry.models,
    Event.attachedFields m.generated.qualifiedName p.events = m.fieldNames

/-- A turn for a property setter reports the field that it appends, for the one model that has the
generated class of the event. -/
theorem Progress.Logged.take {p : Progress} (h : p.Logged) (config : Config) (d : Declaration) :
    (p.take (Round.attachProperty config) d).Logged := by
  have hstep := Round.attachProperty_hasEffect config
  cases he : Round.changeOwner config .property (Round.attachmentChange config) p.registry d with
  | error rejection =>
    rw [Progress.take_of_error hstep he]
    exact ⟨h.indexed, h.attachedFields⟩
  | ok changed =>
    obtain ⟨s, events⟩ := changed
    rw [Progress.take_of_ok hstep he]
    obtain ⟨i, m, a, ho, rfl, rfl⟩ := Round.attachmentChange_eq_ok he
    obtain ⟨hi, -⟩ := h.indexed.owner?_eq_some.mp ho
    refine ⟨h.indexed.replace hi rfl rfl, fun n hn => ?_⟩
    rw [Event.attachedFields_append]
    obtain ⟨j, hj⟩ := List.mem_iff_getElem?.mp hn
    rw [Registry.replace, List.getElem?_set] at hj
    split at hj
    · -- The model that the attribute was appended to.
      obtain ⟨-, hj⟩ := Option.ite_none_right_eq_some.mp hj
      cases hj
      have hbefore : Event.attachedFields m.generated.qualifiedName p.events = m.fieldNames :=
        h.attachedFields m (List.mem_of_getElem? hi)
      show Event.attachedFields m.generated.qualifiedName p.events ++ _ = _
      rw [hbefore]
      simp [Event.attachedFields, Event.attachment?, Model.attachmentEvent, Model.fieldNames,
        Model.appendAttributes]
    · -- Another model has another generated class.
      rename_i hij
      have hother : m.generated.qualifiedName ≠ n.generated.qualifiedName :=
        fun hg => hij (h.indexed.place_of_generated hi hj hg)
      rw [h.attachedFields n (List.mem_of_getElem? hj)]
      simp [Event.attachedFields, Event.attachment?, Model.attachmentEvent, hother]

namespace Round

variable {config : Config} {r : Registry} {input : Candidates}

theorem registered_phase (config : Config) (input : Candidates) :
    (registered config input).phase = .scanningComponents :=
  Progress.scan_phase _ _ _

/-- Nothing is reported while components are registered. -/
theorem registered_events (config : Config) (input : Candidates) :
    (registered config input).events =
      [.roundOpened input.size, .phaseChanged .idle .scanningComponents] :=
  Progress.scan_events_of_silent (registerComponent_hasEffect config) events_of_componentEffect _ _

theorem attached_phase (config : Config) (input : Candidates) :
    (attached config input).phase = .scanningProperties := by
  rw [attached, Progress.scan_phase, Progress.advance, registered_phase]
  rfl

/-- What is reported while property setters are attached are attachments. -/
theorem attached_events (config : Config) (input : Candidates) :
    ∃ attachments, (∀ e ∈ attachments, e.attachment?.isSome = true) ∧
      (attached config input).events =
        [.roundOpened input.size, .phaseChanged .idle .scanningComponents,
          .phaseChanged .scanningComponents .scanningProperties] ++ attachments := by
  obtain ⟨attachments, hevents, hattachments⟩ :=
    (registered config input).advance.exists_events_append (attachProperty_hasEffect config)
      isSome_attachment_of_attachmentChange input.properties
  refine ⟨attachments, hattachments, ?_⟩
  rw [attached, hevents, Progress.advance, registered_events, registered_phase]
  rfl

/-- The attachments that were reported are those of the fields of the models. -/
theorem attached_logged (config : Config) (input : Candidates) :
    (attached config input).Logged := by
  refine Progress.scan_induction (fun q d h => h.take config d)
    ⟨(registered_holds config input).indexed, fun m hm => ?_⟩ _
  have hbare : m ∈ (registered config input).registry.models := hm
  rw [(registered_holds config input).models] at hbare
  obtain ⟨d, -, rfl⟩ := List.mem_map.mp hbare
  have hnone : ∀ e ∈ (registered config input).advance.events, e.attachment? = none := by
    rw [Progress.advance, registered_events]
    simp [Event.attachment?]
  exact Event.attachedFields_eq_nil hnone _

/-- The log of a round: nothing but attachments is reported while property setters are attached, and
nothing at all while components are registered, reset methods are added and models are handed
over. -/
theorem run_events {σ : Type} (config : Config) (emitter : Emitter σ) (s : σ)
    (input : Candidates) :
    ∃ attachments, (∀ e ∈ attachments, e.attachment?.isSome = true) ∧
      (attached config input).events =
        [.roundOpened input.size, .phaseChanged .idle .scanningComponents,
          .phaseChanged .scanningComponents .scanningProperties] ++ attachments ∧
      (run config emitter s input).2.1 = Event.roundLog input.size attachments
        ((attached config input).registry.synthesisEvents config)
        (run config emitter s input).1.models.length
        (run config emitter s input).1.diagnostics.length := by
  obtain ⟨attachments, hattachments, hattached⟩ := attached_events config input
  refine ⟨attachments, hattachments, hattached, ?_⟩
  have hphase : (completed config input).phase = .scanningResets := by
    rw [completed, Progress.scan_phase, Progress.advance, overloaded, synthesize,
      Progress.advance, attached_phase]
    rfl
  have hcompleted : (completed config input).events = (attached config input).events ++
      [.phaseChanged .scanningProperties .synthesizingOverloads] ++
        (attached config input).registry.synthesisEvents config ++
          [.phaseChanged .synthesizingOverloads .scanningResets] := by
    rw [completed, Progress.scan_events_of_silent (addReset_hasEffect config) events_of_resetChange,
      Progress.advance, overloaded, synthesize, Progress.advance, attached_phase]
    rfl
  have hadvance : (completed config input).advance.advance.events =
      (completed config input).events ++ [.phaseChanged .scanningResets .emitting] ++
        [.phaseChanged .emitting .idle] := by
    simp only [Progress.advance, hphase, Phase.next]
  have hrun : (run config emitter s input).2.1 = (completed config input).advance.advance.events ++
      [.roundCompleted (run config emitter s input).1.models.length
        (run config emitter s input).1.diagnostics.length] := rfl
  rw [hrun, hadvance, hcompleted, hattached]
  simp only [Event.roundLog, List.append_assoc, List.cons_append, List.nil_append]

/-! ## Overloads -/

/-- The derivation of overloads reports no transition and no attachment. -/
theorem plain_of_mem_synthesisEvents {e : Event} (he : e ∈ r.synthesisEvents config) :
    e.transition? = none ∧ e.attachment? = none := by
  obtain ⟨m, -, he⟩ := List.mem_flatMap.mp he
  rw [Model.synthesisEvents_eq] at he
  rcases List.mem_append.mp he with he | he
  · obtain ⟨field, -, rfl⟩ := List.mem_map.mp he
    exact ⟨rfl, rfl⟩
  · obtain ⟨o, -, rfl⟩ := List.mem_map.mp he
    exact ⟨rfl, rfl⟩

/-- What is reported as added are the overloads of all models, model by model. -/
theorem filterMap_synthesisEvents (config : Config) (r : Registry) :
    (r.synthesisEvents config).filterMap Event.synthesis? = r.models.flatMap fun m =>
      (m.overloads config).map fun o => (m.generated.qualifiedName, o.fieldName) := by
  rw [Registry.synthesisEvents, List.filterMap_flatMap]
  congr 1
  funext m
  rw [Model.synthesisEvents_eq, List.filterMap_append, List.filterMap_map, List.filterMap_map]
  simp [Function.comp_def, Event.synthesis?]

/-! ## Agreement -/

/-- The models that the emitter of a round is given, in order, whatever it says to them. -/
def handed {σ : Type} (config : Config) (emitter : Emitter σ) (s : σ) (input : Candidates) :
    List Model :=
  (run config emitter.recorded (s, []) input).2.2.2.filterMap Emitter.Call.model?

/-- The emitter is given the models of the components that got one. -/
theorem handed_eq {σ : Type} (config : Config) (emitter : Emitter σ) (s : σ) (input : Candidates) :
    handed config emitter s input =
      (keptComponents config input.components).map (localModel config input) := by
  rw [handed, run_recorded, ← process_models]
  show List.filterMap Emitter.Call.model? ((process config input).models.map .emit) = _
  rw [List.filterMap_map]
  exact List.filterMap_some

/-- What is registered for a component keeps its keys up to the end of the round. -/
theorem localModel_generated (config : Config) (input : Candidates) (d : Declaration) :
    (localModel config input d).generated =
      (attachedModel config input.properties d).generated := by
  rw [localModel_eq, attachedModel_eq]

/-- A log agrees with the models of a round, in the order of their registration, and with its
report. -/
structure Faithful (events : List Event) (models : List Model) (report : Report) : Prop where
  transitions : events.filterMap Event.transition? =
    [(.idle, .scanningComponents), (.scanningComponents, .scanningProperties),
      (.scanningProperties, .synthesizingOverloads), (.synthesizingOverloads, .scanningResets),
      (.scanningResets, .emitting), (.emitting, .idle)]
  attached_within : ∀ p ∈ Event.phased .idle events,
    p.2.attachment?.isSome = true → p.1 = .scanningProperties
  attachedFields : ∀ m ∈ models, Event.attachedFields m.generated.qualifiedName events =
    m.declaredAttributes.map (·.fieldName)
  synthesized_within : ∀ p ∈ Event.phased .idle events,
    p.2.synthesis?.isSome = true → p.1 = .synthesizingOverloads
  synthesized : events.filterMap Event.synthesis? = models.flatMap fun m =>
    m.derivedAttributes.map fun o => (m.generated.qualifiedName, o.fieldName)
  completed : events.getLast? =
    some (.roundCompleted report.models.length report.diagnostics.length)

/-- The log of a round tells the truth, whatever the emitter says. Each phase is entered once, in
order. Attachments are reported in the phase in which properties are scanned; those for the
generated class of a model name the fields of its declared attributes, in order. Overloads are
reported in the phase in which they are derived, and all of them: model by model in the order of
registration, and in order for each model. The last event counts the models and the diagnostics of
the report. -/
theorem log_faithful {σ : Type} (config : Config) (emitter : Emitter σ) (s : σ)
    (input : Candidates) :
    Faithful (run config emitter s input).2.1 (handed config emitter s input)
        (run config emitter s input).1 ∧
      (handed config emitter s input).map (fun m => (m.component, m.generated)) =
        (registered config input).registry.models.map fun m => (m.component, m.generated) := by
  obtain ⟨attachments, hattachments, hattached, hevents⟩ := run_events config emitter s input
  have hoverloads : ∀ e ∈ (attached config input).registry.synthesisEvents config,
      e.transition? = none ∧ e.attachment? = none := fun e => plain_of_mem_synthesisEvents
  have hmodels : (attached config input).registry.models = (keptComponents config
      input.components).map (attachedModel config input.properties) :=
    (attached_holds config input).models
  rw [handed_eq, hevents]
  refine ⟨⟨Event.filterMap_transition_roundLog hattachments hoverloads,
    Event.attached_within_roundLog hattachments hoverloads, fun m hm => ?_,
    Event.synthesized_within_roundLog hattachments hoverloads, ?_,
    Event.getLast?_roundLog ..⟩, ?_⟩
  · obtain ⟨d, hd, rfl⟩ := List.mem_map.mp hm
    have hlogged := (attached_logged config input).attachedFields
      (attachedModel config input.properties d) (hmodels ▸ List.mem_map_of_mem hd)
    rw [hattached, Event.attachedFields_append] at hlogged
    rw [Event.attachedFields_roundLog fun e he => (hoverloads e he).2, localModel_generated,
      declaredAttributes_eq_attachedModel]
    exact hlogged
  · rw [Event.filterMap_synthesis_roundLog hattachments, filterMap_synthesisEvents, hmodels,
      List.flatMap_map, List.flatMap_map]
    simp only [derivedAttributes_eq_overloads, localModel_generated]
  · rw [(registered_holds config input).models, List.map_map, List.map_map]
    refine List.map_congr_left fun d hd => ?_
    simp only [Function.comp_apply]
    rw [localModel_eq, attachedModel_eq]

end Round

end Metamodel
