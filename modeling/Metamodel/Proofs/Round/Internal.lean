import Mathlib.Logic.Basic
import Metamodel.Proofs.Results
import Metamodel.Proofs.Round.Local

/-!
# Internal rejections

A rejection is internal if the rules should have kept it from coming about. Of the three internal
rejections of candidates only one does come about: a component keeps the rules and has a generated
class of its own, but an earlier component has its identity. The rules for members keep the other
two from property setters, whatever the registry.

* `Indexed.register_eq`: what a registration comes to, and for which reason it fails.
* `category_of_attachProperty`, `category_of_addReset`: no member has an internal rejection.
* `registered_internal`: the components that have one.
* `internal_of_repeated_id`: the internal diagnostics of a round.
-/

namespace Metamodel

/-! ## Rules -/

theorem category_of_checkComponent {config : Config} {d : Declaration} {rejection : Rejection}
    (h : checkComponent config d = .error rejection) : rejection.category = .structural := by
  unfold checkComponent at h
  dsimp only at h
  split at h
  · cases h; rfl
  split at h
  · cases h; rfl
  split at h
  · cases h; rfl
  split at h
  · cases h; rfl
  split at h
  · cases h; rfl
  · cases h

theorem category_of_checkMember {config : Config} {role : MemberRole} {d : Declaration}
    {rejection : Rejection} (h : checkMember config role d = .error rejection) :
    rejection.category = .structural := by
  unfold checkMember at h
  dsimp only at h
  split at h
  · cases h; rfl
  split at h
  · cases h; rfl
  split at h
  · cases h; rfl
  · cases h

theorem category_of_resolveDefault {config : Config} {d : Declaration} {type : TypeRef}
    {rejection : Rejection} (h : resolveDefault config d type = .error rejection) :
    rejection.category = .structural := by
  obtain ⟨member, raw, rfl⟩ := resolveDefault_eq_error h
  rfl

/-! ## Attributes -/

/-- With a parameter, an attribute is only refused for its default value, or because it or its field
is there. -/
theorem Model.category_of_attachment {config : Config} {m : Model} {p : Declaration}
    {rejection : Rejection} (hp : p.parameters ≠ [])
    (h : m.attachment config p = .error rejection) : rejection.category ≠ .internal := by
  obtain ⟨parameter, rest, hparameters⟩ := List.exists_cons_of_ne_nil hp
  rcases attachment_cases config m hparameters with ⟨reason, hd, ha⟩ |
    ⟨default, -, ⟨-, ha⟩ | ⟨-, ⟨-, ha⟩ | ⟨-, ha⟩⟩⟩ <;> rw [ha] at h <;> cases h
  · rw [category_of_resolveDefault hd]
    decide
  · simp [Rejection.category]
  · simp [Rejection.category]

/-! ## Registrations -/

namespace Registry

/-- What a registration comes to. The generated class is looked up first, so a component that was
registered before is only noticed if its generated class is another one now. -/
theorem Indexed.register_eq {r : Registry} (h : r.Indexed) (m : Model) :
    ((∃ n ∈ r.models, n.generated.qualifiedName = m.generated.qualifiedName) ∧
      ∃ previous, r.register m =
        .error (.duplicateGeneratedName m.generated.qualifiedName previous)) ∨
    ((∀ n ∈ r.models, n.generated.qualifiedName ≠ m.generated.qualifiedName) ∧
      (∃ n ∈ r.models, n.component = m.component) ∧
        r.register m = .error (.registeredTwice m.component)) ∨
    ((∀ n ∈ r.models, n.generated.qualifiedName ≠ m.generated.qualifiedName) ∧
      (∀ n ∈ r.models, n.component ≠ m.component) ∧ ∃ s, r.register m = .ok s) := by
  rw [Registry.register_eq]
  cases horigin : r.origins.lookup m.generated.qualifiedName with
  | some previous =>
    obtain ⟨n, hn, hg, -⟩ := (h.origin_iff _ previous).mp horigin
    exact .inl ⟨⟨n, hn, hg⟩, previous, rfl⟩
  | none =>
    have hg := h.origins_eq_none.mp horigin
    cases hplace : r.places.lookup m.component with
    | some i =>
      obtain ⟨n, hn, hc⟩ := (h.place_iff _ i).mp hplace
      exact .inr (.inl ⟨hg, ⟨n, List.mem_of_getElem? hn, hc⟩, rfl⟩)
    | none => exact .inr (.inr ⟨hg, h.places_eq_none.mp hplace, _, rfl⟩)

end Registry

/-! ## Scans -/

/-- If a step rejects candidates in a certain way only, so does a scan. -/
theorem Progress.exists_diagnostics_append {P : Diagnostic → Prop}
    (step : Declaration → Attempt Registry Unit)
    (hstep : ∀ {d before left rejection}, (step d).run before = .error rejection left →
      P (rejection.diagnose d)) (p : Progress) (ds : List Declaration) :
    ∃ more, (p.scan step ds).diagnostics = p.diagnostics ++ more ∧ ∀ x ∈ more, P x := by
  refine exists_scan_append (·.diagnostics) (fun q d => ?_) p ds
  unfold take
  cases hs : (step d).run ⟨q.registry, q.events⟩ with
  | ok u left => exact ⟨[], by simp, by simp⟩
  | error rejection left => exact ⟨_, rfl, List.forall_mem_singleton.mpr (hstep hs)⟩

namespace Round

variable {config : Config} {r : Registry} {p d : Declaration} {rejection : Rejection}
  {before : List Declaration} {t left : Traced Registry}

/-! ## Members -/

/-- A property setter that keeps the rules has a parameter, and a model to which an attribute was
attached has that attribute. -/
theorem category_of_attachProperty (h : (attachProperty config p).run t = .error rejection left) :
    rejection.category ≠ .internal := by
  rcases changeOwner_eq_error ((attachProperty_hasEffect config).of_run_error h).1 with hcheck |
    ⟨hcheck, rfl | ⟨m, hc⟩⟩
  · rw [category_of_checkMember hcheck]
    decide
  · simp [orphan, Rejection.category]
  · have harity : p.parameters.length = 1 := (checkMember_eq_ok.mp hcheck).2.1
    have hp : p.parameters ≠ [] := by
      intro hnil
      simp [hnil] at harity
    exact Model.category_of_attachment hp (map_eq_error_iff.mp hc)

/-- A reset method is only refused for the rules or for want of a component. -/
theorem category_of_addReset (h : (addReset config p).run t = .error rejection left) :
    rejection.category ≠ .internal := by
  rcases changeOwner_eq_error ((addReset_hasEffect config).of_run_error h).1 with hcheck |
    ⟨-, rfl | ⟨m, hc⟩⟩
  · rw [category_of_checkMember hcheck]
    decide
  · simp [orphan, Rejection.category]
  · cases hc

/-! ## Components -/

/-- A component repeats an identity: it keeps the rules, no component that got a model before it has
its generated class, and one of them has its identity. -/
def judgeRepeated (config : Config) : Judgement := fun before d =>
  (checkComponent config d).isOk &&
    (keptComponents config before).all (fun k => generatedName config k ≠ generatedName config d) &&
      (keptComponents config before).any (·.id = d.id)

theorem judgeRepeated_eq_true :
    judgeRepeated config before d = true ↔ checkComponent config d = .ok () ∧
      (∀ k ∈ keptComponents config before, generatedName config k ≠ generatedName config d) ∧
        ∃ k ∈ keptComponents config before, k.id = d.id := by
  unfold judgeRepeated
  cases checkComponent config d <;> simp [Except.isOk, Except.toBool]

/-- The diagnostic of a component that repeats an identity. -/
def repeatDiagnostic (d : Declaration) : Diagnostic :=
  (Rejection.registeredTwice d.id).diagnose d

/-- What becomes of a component: it is refused for another reason, it repeats an identity, or it is
registered. -/
theorem componentEffect_cases (h : HoldsComponents config before r) (d : Declaration) :
    (judgeRepeated config before d = false ∧ ∃ rejection,
      componentEffect config r d = .error rejection ∧ rejection.category ≠ .internal) ∨
    (judgeRepeated config before d = true ∧
      componentEffect config r d = .error (.registeredTwice d.id)) ∨
    (judgeRepeated config before d = false ∧ ∃ s, componentEffect config r d = .ok (s, [])) := by
  unfold componentEffect
  cases hcheck : checkComponent config d with
  | error reason =>
    refine .inl ⟨?_, reason, rfl, by simp [category_of_checkComponent hcheck]⟩
    simp [judgeRepeated, hcheck, Except.isOk, Except.toBool]
  | ok u =>
    have hregister := h.indexed.register_eq (.ofComponent config d)
    simp only [h.models, List.forall_mem_map] at hregister
    simp only [List.mem_map, exists_exists_and_eq_and] at hregister
    simp only [Except.bind]
    rcases hregister with ⟨⟨k, hk, hg⟩, previous, hs⟩ | ⟨hg, ⟨k, hk, hc⟩, hs⟩ | ⟨hg, hc, s, hs⟩
    · refine .inl ⟨?_, .duplicateGeneratedName (generatedName config d) previous, ?_,
        by simp [Rejection.category]⟩
      · rw [Bool.eq_false_iff, Ne, judgeRepeated_eq_true]
        rintro ⟨-, hother, -⟩
        exact hother k hk hg
      · rw [hs]
        rfl
    · refine .inr (.inl ⟨judgeRepeated_eq_true.mpr ⟨hcheck, hg, k, hk, hc⟩, ?_⟩)
      rw [hs]
      rfl
    · refine .inr (.inr ⟨?_, s, ?_⟩)
      · rw [Bool.eq_false_iff, Ne, judgeRepeated_eq_true]
        rintro ⟨-, -, k, hk, hid⟩
        exact hc k hk hid
      · rw [hs]
        rfl

/-- What one component adds to the internal diagnostics. -/
theorem take_internal {q : Progress} (h : HoldsComponents config before q.registry)
    (d : Declaration) :
    (q.take (registerComponent config) d).diagnostics.filter (·.category = .internal) =
      q.diagnostics.filter (·.category = .internal) ++
        if judgeRepeated config before d then [repeatDiagnostic d] else [] := by
  have hstep := registerComponent_hasEffect config
  rcases componentEffect_cases h d with ⟨hj, rejection, hs, hc⟩ | ⟨hj, hs⟩ | ⟨hj, s, hs⟩
  · rw [Progress.take_of_error hstep hs]
    simp [hj, Rejection.diagnose, Rejection.atLocation, hc]
  · rw [Progress.take_of_error hstep hs]
    simp [hj, repeatDiagnostic, Rejection.diagnose, Rejection.atLocation, Rejection.category]
  · rw [Progress.take_of_ok hstep hs]
    simp [hj]

/-- The internal diagnostics of components are those of the components that repeat an identity. -/
theorem registered_internal (config : Config) (input : Candidates) :
    (registered config input).diagnostics.filter (·.category = .internal) =
      ((judgeRepeated config).accepted [] input.components).map repeatDiagnostic := by
  suffices h : ∀ (ds before : List Declaration) (q : Progress),
      HoldsComponents config before q.registry →
      (q.scan (registerComponent config) ds).diagnostics.filter (·.category = .internal) =
        q.diagnostics.filter (·.category = .internal) ++
          ((judgeRepeated config).accepted before ds).map repeatDiagnostic from
    h input.components [] (Progress.start input).advance Registry.Holds.empty
  intro ds
  induction ds with
  | nil => simp [Judgement.accepted]
  | cons d rest ih =>
    intro before q h
    have hnext :=
      ((registerComponent_follows config).take (registerComponent_hasEffect config) h d).1
    rw [Progress.scan_cons, ih (before ++ [d]) _ hnext, take_internal h, Judgement.accepted]
    split <;> simp

/-! ## Rounds -/

/-- The diagnostics of members follow those of components, and none of them is internal. -/
theorem exists_member_diagnostics (config : Config) (input : Candidates) :
    ∃ ofMembers, (process config input).diagnostics =
      (registered config input).diagnostics ++ ofMembers ∧
        ∀ x ∈ ofMembers, x.category ≠ .internal := by
  have hattached : ∃ more, (attached config input).diagnostics =
      (registered config input).diagnostics ++ more ∧ ∀ x ∈ more, x.category ≠ .internal :=
    (registered config input).advance.exists_diagnostics_append
      (attachProperty config) category_of_attachProperty input.properties
  have hcompleted : ∃ more, (completed config input).diagnostics =
      (attached config input).diagnostics ++ more ∧ ∀ x ∈ more, x.category ≠ .internal :=
    (overloaded config input).advance.exists_diagnostics_append
      (addReset config) category_of_addReset input.resets
  obtain ⟨ofProperties, hp, hpnone⟩ := hattached
  obtain ⟨ofResets, hr, hrnone⟩ := hcompleted
  refine ⟨ofProperties ++ ofResets, ?_, List.forall_mem_append.mpr ⟨hpnone, hrnone⟩⟩
  rw [process_eq, hr, hp, List.append_assoc]

/-- The internal diagnostics of a round are those of the components that keep the rules and have a
generated class of their own, but the identity of a component that was registered before them in the
round: one for each, in order. The diagnostics of members follow behind those of components and none
of them is internal, for no registry lets a property setter or a reset method have such a rejection.
So a property setter never lacks its parameter when it is resolved, nor a model the attribute that
was attached to it. -/
theorem internal_of_repeated_id (config : Config) (input : Candidates) :
    (process config input).diagnostics.filter (·.category = .internal) =
        ((judgeRepeated config).accepted [] input.components).map
          (fun d => ⟨.ofDeclaration d, .internal, (Rejection.registeredTwice d.id).message⟩) ∧
      (∃ ofMembers, (process config input).diagnostics =
          (registered config input).diagnostics ++ ofMembers ∧
        ∀ x ∈ ofMembers, x.category ≠ .internal) ∧
      ∀ (before left : Traced Registry) (p : Declaration) (rejection : Rejection),
        (attachProperty config p).run before = .error rejection left ∨
            (addReset config p).run before = .error rejection left →
          rejection.category ≠ .internal ∧ rejection ≠ .missingParameter p.id ∧
            rejection ≠ .missingAttribute := by
  obtain ⟨ofMembers, hmembers, hnone⟩ := exists_member_diagnostics config input
  refine ⟨?_, ⟨ofMembers, hmembers, hnone⟩, fun before left p rejection h => ?_⟩
  · have hfilter : ofMembers.filter (·.category = .internal) = [] :=
      List.filter_eq_nil_iff.mpr fun x hx => by simp [hnone x hx]
    rw [hmembers, List.filter_append, hfilter, List.append_nil, registered_internal]
    rfl
  · have hc : rejection.category ≠ .internal :=
      h.elim category_of_attachProperty category_of_addReset
    exact ⟨hc, fun he => hc (he ▸ rfl), fun he => hc (he ▸ rfl)⟩

/-- A property setter of a component that is not there. -/
def looseTitle : Declaration :=
  .ofMethod ⟨"com.example.TextView"⟩ "setTitle" [⟨"title", .ofName "java.lang.String", []⟩]

/-- A card, a row with the identity of the card, and a title of neither. -/
def repeatedIdRound : Candidates where
  components := [(Declaration.ofClass "com.example" "CardView").extending "android.view.View",
    { (Declaration.ofClass "com.example" "RowView").extending "android.view.View" with
      id := ⟨"com.example.CardView"⟩ }]
  properties := [looseTitle]
  resets := []

theorem internal_of_repeated_id_row :
    (process .standard repeatedIdRound).diagnostics.length = 2 ∧
      (process .standard repeatedIdRound).diagnostics.filter (·.category = .internal) =
        [⟨⟨⟨"com.example.CardView"⟩, "RowView"⟩, .internal,
          "registering model: component com.example.CardView registered twice"⟩] ∧
      ∃ rejection, (attachProperty .standard looseTitle).run ⟨.empty, []⟩ =
          .error rejection ⟨.empty, []⟩ ∧
        rejection.category ≠ .internal := by
  obtain ⟨hinternal, -, hmembers⟩ := internal_of_repeated_id .standard repeatedIdRound
  have hloose : (attachProperty .standard looseTitle).run ⟨.empty, []⟩ =
      .error (orphan .standard .property looseTitle) ⟨.empty, []⟩ := rfl
  exact ⟨by decide +kernel, hinternal.trans (by decide +kernel), _, hloose,
    (hmembers _ _ looseTitle _ (.inl hloose)).1⟩

end Round

end Metamodel
