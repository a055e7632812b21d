import Metamodel.Proofs.Round.Scan

/-!
# Rounds without the candidates that were given up

A candidate that is given up leaves a diagnostic and nothing else, because no step that fails has
changed its registry. So a round that leaves such candidates out, and takes the others in their
order, ends with the same models.

* `take_cases`: what can become of a candidate.
* `scan_unreported`: a scan of the candidates that got no diagnostic leads to the same registry.
* `process_cleaned`: a round without the candidates that were given up.
-/

namespace Metamodel

namespace Progress

variable {step : Declaration → Attempt Registry Unit} {effect : Effect Registry}
  {p q : Progress} {d : Declaration}

/-- A candidate either gets no diagnostic, and then the registry is changed as the effect says, or
it gets one, and then the step has left the registry as it was. -/
theorem take_cases (h : HasEffect step effect) (p : Progress) (d : Declaration) :
    (∃ s events, effect p.registry d = .ok (s, events) ∧ (p.take step d).registry = s ∧
        (p.take step d).diagnostics = p.diagnostics) ∨
      ∃ rejection, effect p.registry d = .error rejection ∧
        (p.take step d).registry = p.registry ∧
          (p.take step d).diagnostics = p.diagnostics ++ [rejection.diagnose d] := by
  cases he : effect p.registry d with
  | ok changed =>
    rw [take_of_ok h he]
    exact .inl ⟨changed.1, changed.2, rfl, rfl, rfl⟩
  | error rejection =>
    rw [take_of_error h he]
    exact .inr ⟨rejection, rfl, rfl, rfl⟩

/-- The candidates that get no diagnostic in a scan, in their order. -/
def unreported (step : Declaration → Attempt Registry Unit) (p : Progress) :
    List Declaration → List Declaration
  | [] => []
  | d :: rest =>
    if (p.take step d).diagnostics = p.diagnostics then d :: (p.take step d).unreported step rest
    else (p.take step d).unreported step rest

/-- Every candidate either gets no diagnostic or exactly one. -/
theorem length_scan_diagnostics (h : HasEffect step effect) (p : Progress)
    (ds : List Declaration) :
    (p.scan step ds).diagnostics.length + (p.unreported step ds).length =
      p.diagnostics.length + ds.length := by
  induction ds generalizing p with
  | nil => rfl
  | cons d rest ih =>
    have hrest := ih (p.take step d)
    rw [scan_cons, unreported]
    rcases p.take_cases h d with ⟨s, events, -, -, hd⟩ | ⟨rejection, -, -, hd⟩
    · rw [if_pos hd]
      rw [hd] at hrest
      simp only [List.length_cons]
      omega
    · have hne : (p.take step d).diagnostics ≠ p.diagnostics := by simp [hd]
      rw [if_neg hne]
      rw [hd, List.length_append] at hrest
      simp only [List.length_cons, List.length_nil] at hrest ⊢
      omega

/-- A candidate that got no diagnostic gets none wherever the registry is the same, and changes the
registry as before. -/
theorem take_of_unreported (h : HasEffect step effect) (hq : q.registry = p.registry)
    (hd : (p.take step d).diagnostics = p.diagnostics) :
    (q.take step d).registry = (p.take step d).registry ∧
      (q.take step d).diagnostics = q.diagnostics := by
  rcases p.take_cases h d with ⟨s, events, he, hr, -⟩ | ⟨rejection, -, -, hreported⟩
  · rw [hr, take_of_ok h (hq ▸ he)]
    exact ⟨rfl, rfl⟩
  · rw [hreported] at hd
    simp at hd

/-- The candidates that got no diagnostic lead from the same registry to the same registry, and
again they get none. -/
theorem scan_unreported (h : HasEffect step effect) (hq : q.registry = p.registry)
    (ds : List Declaration) :
    (q.scan step (p.unreported step ds)).registry = (p.scan step ds).registry ∧
      (q.scan step (p.unreported step ds)).diagnostics = q.diagnostics := by
  induction ds generalizing p q with
  | nil => exact ⟨hq, rfl⟩
  | cons d rest ih =>
    rw [scan_cons, unreported]
    by_cases hd : (p.take step d).diagnostics = p.diagnostics
    · obtain ⟨hr, hn⟩ := take_of_unreported h hq hd
      obtain ⟨hregistry, hdiagnostics⟩ := ih hr
      rw [if_pos hd, scan_cons]
      exact ⟨hregistry, hdiagnostics.trans hn⟩
    · -- What got a diagnostic left the registry as it was, so nothing is missing without it.
      rw [if_neg hd]
      rcases p.take_cases h d with ⟨s, events, -, -, he⟩ | ⟨rejection, -, hr, -⟩
      · exact absurd he hd
      · exact ih (hq.trans hr.symm)

end Progress

namespace Round

variable {config : Config} {input : Candidates}

/-- The candidates that get no diagnostic in a round, each kind in its order. -/
def cleaned (config : Config) (input : Candidates) : Candidates where
  components :=
    (Progress.start input).advance.unreported (registerComponent config) input.components
  properties :=
    (registered config input).advance.unreported (attachProperty config) input.properties
  resets := (overloaded config input).advance.unreported (addReset config) input.resets

/-- The scans of a round without the candidates that were given up lead to the same registry. -/
theorem completed_cleaned (config : Config) (input : Candidates) :
    (completed config (cleaned config input)).registry = (completed config input).registry ∧
      (completed config (cleaned config input)).diagnostics = [] := by
  have hregistered : (registered config (cleaned config input)).registry =
      (registered config input).registry ∧
        (registered config (cleaned config input)).diagnostics = [] :=
    Progress.scan_unreported (p := (Progress.start input).advance)
      (q := (Progress.start (cleaned config input)).advance)
      (registerComponent_hasEffect config) rfl input.components
  have hattached : (attached config (cleaned config input)).registry =
      (attached config input).registry ∧
        (attached config (cleaned config input)).diagnostics =
          (registered config (cleaned config input)).diagnostics :=
    Progress.scan_unreported (p := (registered config input).advance)
      (q := (registered config (cleaned config input)).advance)
      (attachProperty_hasEffect config) hregistered.1 input.properties
  have hoverloaded : (overloaded config (cleaned config input)).registry =
      (overloaded config input).registry :=
    congrArg (·.synthesize config) hattached.1
  have hcompleted : (completed config (cleaned config input)).registry =
      (completed config input).registry ∧
        (completed config (cleaned config input)).diagnostics =
          (attached config (cleaned config input)).diagnostics :=
    Progress.scan_unreported (p := (overloaded config input).advance)
      (q := (overloaded config (cleaned config input)).advance)
      (addReset_hasEffect config) hoverloaded input.resets
  exact ⟨hcompleted.1, hcompleted.2.trans (hattached.2.trans hregistered.2)⟩

/-- Every candidate of a round either gets no diagnostic or exactly one. -/
theorem length_diagnostics (config : Config) (input : Candidates) :
    (completed config input).diagnostics.length + (cleaned config input).size = input.size := by
  have hregistered : (registered config input).diagnostics.length +
      (cleaned config input).components.length = 0 + input.components.length :=
    (Progress.start input).advance.length_scan_diagnostics (registerComponent_hasEffect config)
      input.components
  have hattached : (attached config input).diagnostics.length +
      (cleaned config input).properties.length =
        (registered config input).diagnostics.length + input.properties.length :=
    (registered config input).advance.length_scan_diagnostics (attachProperty_hasEffect config)
      input.properties
  have hcompleted : (completed config input).diagnostics.length +
      (cleaned config input).resets.length =
        (attached config input).diagnostics.length + input.resets.length :=
    (overloaded config input).advance.length_scan_diagnostics (addReset_hasEffect config)
      input.resets
  unfold Candidates.size
  omega

/-- Candidates that are given up leave no trace: without them a round ends with the same models and
reports nothing. What is left out are exactly as many candidates as there were diagnostics. This is
so because a step of any phase that fails leaves the registry, and with it every model, as it was,
and has reported nothing. -/
theorem process_cleaned (config : Config) (input : Candidates) :
    process config (cleaned config input) = ⟨(process config input).models, []⟩ ∧
      (process config input).diagnostics.length + (cleaned config input).size = input.size ∧
      ∀ (d : Declaration) (before left : Traced Registry) (rejection : Rejection),
        (registerComponent config d).run before = .error rejection left ∨
            (attachProperty config d).run before = .error rejection left ∨
              (addReset config d).run before = .error rejection left →
          left = before := by
  obtain ⟨hregistry, hdiagnostics⟩ := completed_cleaned config input
  refine ⟨?_, ?_, ?_⟩
  · rw [process_eq, process_eq, hregistry, hdiagnostics]
  · rw [process_eq]
    exact length_diagnostics config input
  · rintro d before left rejection (h | h | h)
    · exact ((registerComponent_hasEffect config).of_run_error h).2
    · exact ((attachProperty_hasEffect config).of_run_error h).2
    · exact ((addReset_hasEffect config).of_run_error h).2

/-- A card with two icons, whose types have the same simple name, and a reset method of no card. -/
def iconsRound : Candidates where
  components := [(Declaration.ofClass "com.example" "CardView").extending "android.view.View"]
  properties :=
    ["com.example.Icon", "com.example.ui.Icon"].map fun icon =>
      .ofMethod ⟨"com.example.CardView"⟩ "setIcon" [⟨"value", .ofName icon, []⟩]
  resets := [.ofMethod ⟨"com.example.Orphan"⟩ "clear" []]

/-- The second icon and the reset method are given up, and where the first icon is, a step for the
second one fails and changes nothing. -/
theorem process_cleaned_icons :
    cleaned .standard iconsRound =
        { iconsRound with properties := iconsRound.properties.take 1, resets := [] } ∧
      process .standard (cleaned .standard iconsRound) =
        ⟨(process .standard iconsRound).models, []⟩ ∧
      let before : Traced Registry := ⟨(attached .standard iconsRound).registry, []⟩
      ∀ setIcon ∈ iconsRound.properties.drop 1,
        ∃ rejection, (attachProperty .standard setIcon).run before = .error rejection before := by
  obtain ⟨hprocess, -, hunchanged⟩ := process_cleaned .standard iconsRound
  refine ⟨by decide +kernel, hprocess, fun setIcon hmem => ?_⟩
  have hfails : ∀ d ∈ iconsRound.properties.drop 1, ((attachProperty .standard d).outcome
      (attached .standard iconsRound).registry).isOk = false := by decide +kernel
  have hsetIcon := hfails setIcon hmem
  cases hrun : (attachProperty .standard setIcon).run
      ⟨(attached .standard iconsRound).registry, []⟩ with
  | ok a left =>
    rw [Attempt.outcome, hrun] at hsetIcon
    cases hsetIcon
  | error rejection left =>
    rw [hunchanged setIcon _ left rejection (.inr (.inl hrun))]
    exact ⟨rejection, rfl⟩

end Round

end Metamodel
