import Metamodel.Proofs.Round.Steps

/-!
# Scans

A round consists of three scans with the derivation of overloads between the second and the third.
What a scan does follows from the effect of its step: if the effect takes exactly the candidates
that a judgement accepts, and keeps what is said about the registry, so does the scan.

* `process_eq`: a round whose models are taken by no one hands over all of them.
* `build_eq`: the scans of a round, one after another.
* `Progress.scan_induction`: what every turn keeps, a scan keeps.
* `Follows.scan_registry`: what the steps keep holds after the scan.
* `Follows.scan_locations`: there is one diagnostic for each candidate that is refused.
-/

namespace Metamodel

/-- The emitter that takes everything refuses nothing. -/
theorem Emitter.emitAll_null (s : Unit) (models : List Model) :
    Emitter.null.emitAll s models = (s, models, []) := by
  induction models with
  | nil => rfl
  | cons m rest ih =>
    have he : null.emit s m = (s, .ok ()) := rfl
    simp [emitAll, he, ih]

/-- An emitter takes models as they are, in order. -/
theorem Emitter.emitAll_sublist {σ : Type} (emitter : Emitter σ) (s : σ) (models : List Model) :
    (emitter.emitAll s models).2.1.Sublist models := by
  induction models generalizing s with
  | nil => exact .refl _
  | cons m rest ih =>
    have hr := ih (emitter.emit s m).1
    rw [emitAll]
    cases he : (emitter.emit s m).2 with
    | ok u => simpa [he] using hr
    | error refusal => simpa [he] using hr.cons m

/-! ## Judgements -/

/-- Whether a candidate is accepted behind the candidates before it. -/
abbrev Judgement := List Declaration → Declaration → Bool

namespace Judgement

/-- The candidates that are accepted, each behind those before it. -/
def accepted (judge : Judgement) (before : List Declaration) : List Declaration → List Declaration
  | [] => []
  | d :: rest =>
    if judge before d then d :: judge.accepted (before ++ [d]) rest
    else judge.accepted (before ++ [d]) rest

/-- The candidates that are not accepted, each behind those before it. -/
def refused (judge : Judgement) : List Declaration → List Declaration → List Declaration :=
  accepted fun before d => !judge before d

/-- Every candidate is either accepted or refused. -/
theorem length_accepted_add_refused (judge : Judgement) (before ds : List Declaration) :
    (judge.accepted before ds).length + (judge.refused before ds).length = ds.length := by
  induction ds generalizing before with
  | nil => rfl
  | cons d rest ih =>
    have := ih (before ++ [d])
    simp only [refused, accepted] at this ⊢
    by_cases hj : judge before d = true <;> simp [hj] <;> omega

/-- A judgement that does not look at the candidates before is a filter. -/
theorem accepted_const (q : Declaration → Bool) (before ds : List Declaration) :
    accepted (fun _ d => q d) before ds = ds.filter q := by
  induction ds generalizing before with
  | nil => rfl
  | cons d rest ih => rw [accepted, ih, List.filter_cons]

/-- What is accepted stays in order. -/
theorem accepted_sublist (judge : Judgement) (before ds : List Declaration) :
    (judge.accepted before ds).Sublist ds := by
  induction ds generalizing before with
  | nil => exact .refl _
  | cons d rest ih =>
    rw [accepted]
    split
    · exact (ih _).cons_cons d
    · exact (ih _).cons d

/-- What is accepted is a candidate that was judged so. -/
theorem mem_accepted {judge : Judgement} {before ds : List Declaration} {d : Declaration}
    (h : d ∈ judge.accepted before ds) : d ∈ ds ∧ ∃ earlier, judge earlier d = true := by
  induction ds generalizing before with
  | nil => simp [accepted] at h
  | cons e rest ih =>
    rw [accepted] at h
    split at h
    · rename_i he
      rcases List.mem_cons.mp h with rfl | h
      · exact ⟨List.mem_cons_self, before, he⟩
      · exact ⟨List.mem_cons_of_mem e (ih h).1, (ih h).2⟩
    · exact ⟨List.mem_cons_of_mem e (ih h).1, (ih h).2⟩

end Judgement

namespace Progress

@[simp] theorem advance_registry (p : Progress) : p.advance.registry = p.registry := rfl

@[simp] theorem advance_diagnostics (p : Progress) : p.advance.diagnostics = p.diagnostics := rfl

variable {step : Declaration → Attempt Registry Unit} {effect : Effect Registry}
  {judge : Judgement} {holds : List Declaration → Registry → Prop}
  {before ds : List Declaration} {p : Progress} {d : Declaration} {s : Registry}
  {events : List Event} {rejection : Rejection}

theorem take_of_ok (h : HasEffect step effect) (he : effect p.registry d = .ok (s, events)) :
    p.take step d = { p with registry := s, events := p.events ++ events } := by
  obtain ⟨⟨⟩, hrun⟩ := h.run_of_ok (t := ⟨p.registry, p.events⟩) he
  rw [take, hrun]

/-- A step that fails adds a diagnostic and changes nothing else. -/
theorem take_of_error (h : HasEffect step effect) (he : effect p.registry d = .error rejection) :
    p.take step d = { p with diagnostics := p.diagnostics ++ [rejection.diagnose d] } := by
  rw [take, h.run_of_error (t := ⟨p.registry, p.events⟩) he]

/-- What every turn keeps, a scan keeps. -/
theorem scan_induction {P : Progress → Prop} (htake : ∀ q d, P q → P (q.take step d)) (hp : P p)
    (ds : List Declaration) : P (p.scan step ds) :=
  List.foldlRecOn ds (take step) hp fun q hq d _ => htake q d hq

/-- If every turn only adds items of a certain kind to a list, so does a scan. -/
theorem exists_scan_append {β : Type} {P : β → Prop} (items : Progress → List β)
    (htake : ∀ q d, ∃ more, items (q.take step d) = items q ++ more ∧ ∀ x ∈ more, P x)
    (p : Progress) (ds : List Declaration) :
    ∃ more, items (p.scan step ds) = items p ++ more ∧ ∀ x ∈ more, P x := by
  refine scan_induction (P := fun q => ∃ more, items q = items p ++ more ∧ ∀ x ∈ more, P x)
    (fun q d ⟨before, hbefore, hP⟩ => ?_) ⟨[], by simp, by simp⟩ ds
  obtain ⟨more, hmore, hmoreP⟩ := htake q d
  refine ⟨before ++ more, ?_, List.forall_mem_append.mpr ⟨hP, hmoreP⟩⟩
  rw [hmore, hbefore, List.append_assoc]

/-- A scan stays in its phase. -/
@[simp] theorem scan_phase (step : Declaration → Attempt Registry Unit) (p : Progress)
    (ds : List Declaration) : (p.scan step ds).phase = p.phase := by
  refine scan_induction (P := fun q => q.phase = p.phase) (fun q d hq => ?_) rfl ds
  rw [← hq, take]
  split <;> rfl

/-- The effect takes exactly the candidates that the judgement accepts. Whatever becomes of a
candidate, it counts among those before the next one, and what is said about them and the registry
holds again. -/
structure Follows (effect : Effect Registry) (judge : Judgement)
    (holds : List Declaration → Registry → Prop) : Prop where
  accepts : ∀ {before r d}, holds before r → judge before d = true →
    ∃ s events, effect r d = .ok (s, events) ∧ holds (before ++ [d]) s
  refuses : ∀ {before r d}, holds before r → judge before d = false →
    ∃ rejection, effect r d = .error rejection ∧ holds (before ++ [d]) r

namespace Follows

/-- What one turn does: the registry follows, and a refused candidate gets a diagnostic. -/
theorem take (h : Follows effect judge holds) (hstep : HasEffect step effect)
    (hp : holds before p.registry) (d : Declaration) :
    holds (before ++ [d]) (p.take step d).registry ∧
      (p.take step d).diagnostics.map (·.location) =
        p.diagnostics.map (·.location) ++ if judge before d then [] else [.ofDeclaration d] := by
  cases hj : judge before d with
  | true =>
    obtain ⟨s, events, he, hn⟩ := h.accepts hp hj
    rw [take_of_ok hstep he]
    exact ⟨hn, by simp⟩
  | false =>
    obtain ⟨rejection, he, hn⟩ := h.refuses hp hj
    rw [take_of_error hstep he]
    exact ⟨hn, by simp [Rejection.diagnose, Rejection.atLocation]⟩

/-- What a scan does behind earlier candidates: the registry follows, and each candidate that is
refused gets a diagnostic. -/
private theorem scan_behind (h : Follows effect judge holds) (hstep : HasEffect step effect)
    (hp : holds before p.registry) (ds : List Declaration) :
    holds (before ++ ds) (p.scan step ds).registry ∧
      (p.scan step ds).diagnostics.map (·.location) =
        p.diagnostics.map (·.location) ++ (judge.refused before ds).map .ofDeclaration := by
  induction ds generalizing before p with
  | nil => simpa [Judgement.refused, Judgement.accepted] using hp
  | cons d rest ih =>
    obtain ⟨hd, hl⟩ := h.take hstep hp d
    obtain ⟨hr, hlr⟩ := ih hd
    refine ⟨by simpa using hr, ?_⟩
    rw [scan_cons, hlr, hl]
    simp only [Judgement.refused, Judgement.accepted]
    by_cases hj : judge before d = true <;> simp [hj]

/-- What the steps keep holds after the scan, of all candidates. -/
theorem scan_registry (h : Follows effect judge holds) (hstep : HasEffect step effect)
    (p : Progress) (hp : holds [] p.registry) (ds : List Declaration) :
    holds ds (p.scan step ds).registry :=
  (h.scan_behind hstep hp ds).1

/-- A scan leaves one diagnostic for each candidate that is refused, in order. -/
theorem scan_locations (h : Follows effect judge holds) (hstep : HasEffect step effect)
    (p : Progress) (hp : holds [] p.registry) (ds : List Declaration) :
    (p.scan step ds).diagnostics.map (·.location) =
      p.diagnostics.map (·.location) ++ (judge.refused [] ds).map .ofDeclaration :=
  (h.scan_behind hstep hp ds).2

end Follows

end Progress

/-! ## The scans of a round -/

namespace Round

/-- The round after the scan of components. -/
def registered (config : Config) (input : Candidates) : Progress :=
  (Progress.start input).advance.scan (registerComponent config) input.components

/-- The round after the scan of property setters. -/
def attached (config : Config) (input : Candidates) : Progress :=
  (registered config input).advance.scan (attachProperty config) input.properties

/-- The round after the derivation of overloads. -/
def overloaded (config : Config) (input : Candidates) : Progress :=
  synthesize config (attached config input).advance

/-- The round after the scan of reset methods. -/
def completed (config : Config) (input : Candidates) : Progress :=
  (overloaded config input).advance.scan (addReset config) input.resets

theorem build_eq (config : Config) (input : Candidates) :
    build config input = (completed config input).advance := rfl

/-- A round whose models are taken by no one hands over all of them. -/
theorem process_eq (config : Config) (input : Candidates) :
    process config input =
      ⟨(completed config input).registry.models, (completed config input).diagnostics⟩ := by
  unfold process run
  simp [Emitter.emitAll_null, build_eq]

end Round

end Metamodel
