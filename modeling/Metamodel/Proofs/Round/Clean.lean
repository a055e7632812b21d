import Mathlib.Data.List.Induction
import Metamodel.Proofs.Round.Accounting

/-!
# Rounds that give up nothing

Whether a candidate is accepted depends on those before it. Whether all are accepted does not: it
takes that every candidate is right by itself, and that no two are in each other's way.

* `Judgement.refused_eq_nil_iff`: when a judgement accepts everything.
* `WantsOtherField`: two property setters are not in each other's way.
* `Clean`: what it takes for a round to give up nothing, said without an order of candidates.
* `process_diagnostics_eq_nil_iff`: a round gives up nothing exactly if its candidates are clean.
* `Clean.keptComponents_eq`, `Clean.acceptedProperties_eq`, `Clean.acceptedResets_eq`: in such a
  round all candidates are accepted.
-/

namespace Metamodel

namespace Judgement

variable {judge : Judgement} {before ds : List Declaration}

/-- If no candidate is refused, all are accepted. -/
theorem accepted_eq_self (h : judge.refused before ds = []) : judge.accepted before ds = ds := by
  induction ds generalizing before with
  | nil => rfl
  | cons d rest ih =>
    simp only [refused, accepted] at h ih ⊢
    by_cases hj : judge before d = true
    · simp only [hj, Bool.not_true, Bool.false_eq_true, ↓reduceIte] at h
      rw [if_pos hj, ih h]
    · simp [hj] at h

/-- The last candidate is judged behind all others. -/
theorem refused_concat (judge : Judgement) (before ds : List Declaration) (d : Declaration) :
    judge.refused before (ds ++ [d]) =
      judge.refused before ds ++ if judge (before ++ ds) d then [] else [d] := by
  induction ds generalizing before with
  | nil =>
    simp only [refused, accepted, List.nil_append, List.append_nil]
    by_cases hj : judge before d = true <;> simp [hj]
  | cons e rest ih =>
    have hrest := ih (before ++ [e])
    simp only [refused, accepted, List.cons_append, List.append_assoc, List.nil_append]
      at hrest ⊢
    rw [hrest]
    split <;> rfl

/-- Let a candidate, behind others that were all accepted, be accepted if it is right by itself and
apart from each of them. Then all candidates are accepted exactly if all are right and any two are
apart. -/
theorem refused_eq_nil_iff {right : Declaration → Prop} {apart : Declaration → Declaration → Prop}
    (h : ∀ before d, judge.refused [] before = [] →
      (judge before d = true ↔ right d ∧ ∀ e ∈ before, apart e d)) (ds : List Declaration) :
    judge.refused [] ds = [] ↔ (∀ d ∈ ds, right d) ∧ ds.Pairwise apart := by
  induction ds using List.reverseRecOn with
  | nil => simp [refused, accepted]
  | append_singleton ds d ih =>
    rw [refused_concat, List.nil_append, List.append_eq_nil_iff, List.pairwise_append]
    simp only [List.forall_mem_append, List.forall_mem_singleton, List.pairwise_singleton,
      ite_eq_left_iff, List.cons_ne_nil, imp_false, not_not, true_and]
    constructor
    · rintro ⟨hds, hd⟩
      obtain ⟨hright, hapart⟩ := ih.mp hds
      obtain ⟨hd, hbefore⟩ := (h ds d hds).mp hd
      exact ⟨⟨hright, hd⟩, hapart, hbefore⟩
    · rintro ⟨⟨hright, hd⟩, hapart, hbefore⟩
      have hds := ih.mpr ⟨hright, hapart⟩
      exact ⟨hds, (h ds d hds).mpr ⟨hd, hbefore⟩⟩

end Judgement

namespace Round

variable {config : Config} {input : Candidates} {components kept before : List Declaration}
  {d p q : Declaration}

/-! ## Components -/

/-- Two components have neither an identity nor a generated class in common. -/
def HasOtherKeys (config : Config) (d k : Declaration) : Prop :=
  d.id ≠ k.id ∧ generatedName config d ≠ generatedName config k

theorem HasOtherKeys.symm {k : Declaration} (h : HasOtherKeys config d k) :
    HasOtherKeys config k d :=
  ⟨h.1.symm, h.2.symm⟩

theorem keptComponents_eq_self (h : (judgeComponent config).refused [] components = []) :
    keptComponents config components = components := by
  rw [keptComponents_eq_accepted, Judgement.accepted_eq_self h]

/-- All components are accepted exactly if they keep the rules and no two have a key in common. -/
theorem refused_components_eq_nil_iff (config : Config) (components : List Declaration) :
    (judgeComponent config).refused [] components = [] ↔
      (∀ d ∈ components, checkComponent config d = .ok ()) ∧
        components.Pairwise (HasOtherKeys config) := by
  refine Judgement.refused_eq_nil_iff (fun before d hbefore => ?_) components
  rw [judgeComponent, keptComponents_eq_self hbefore, admits_eq_true]
  rfl

/-! ## Property setters -/

/-- Two property setters do not want one field of one component. -/
def WantsOtherField (config : Config) (p q : Declaration) : Prop :=
  p.enclosing = q.enclosing → ∀ a b, Attribute.ofSetter config p = .ok a →
    Attribute.ofSetter config q = .ok b → a.fieldName ≠ b.fieldName

theorem WantsOtherField.symm (h : WantsOtherField config p q) : WantsOtherField config q p :=
  fun he a b ha hb hab => h he.symm b a hb ha hab.symm

/-- The attributes of a component, if all property setters so far are accepted. -/
theorem mem_attachedModel (hu : ∀ k ∈ kept, k.id = d.id → k = d) (hd : d ∈ kept)
    (hbefore : (judgeProperty config kept).refused [] before = []) {a : Attribute} :
    a ∈ (attachedModel config before d).attributes ↔
      ∃ q ∈ before, q.enclosing = some d.id ∧ Attribute.ofSetter config q = .ok a := by
  have hattributes : (attachedModel config before d).attributes.map .ok =
      (ownedBy d ((judgeProperty config kept).accepted [] before)).map
        (Attribute.ofSetter config) := attributes_attachedModel hu hd before
  rw [Judgement.accepted_eq_self hbefore] at hattributes
  have hmem : (.ok a : Except Rejection Attribute) ∈
      (attachedModel config before d).attributes.map .ok ↔
        .ok a ∈ (ownedBy d before).map (Attribute.ofSetter config) := by
    rw [hattributes]
  simpa [ownedBy, and_assoc] using hmem

/-- Behind property setters that are all accepted, the attribute of another one can be attached to a
component exactly if it has an attribute, and none of those of the component wants its field. -/
theorem attachment_isOk_iff (hu : ∀ k ∈ kept, k.id = d.id → k = d) (hd : d ∈ kept)
    (hbefore : (judgeProperty config kept).refused [] before = []) (he : p.enclosing = some d.id) :
    ((attachedModel config before d).attachment config p).isOk = true ↔
      (∃ a, Attribute.ofSetter config p = .ok a) ∧ ∀ q ∈ before, WantsOtherField config q p := by
  have hok : ((attachedModel config before d).attachment config p).isOk = true ↔
      ∃ a, (attachedModel config before d).attachment config p = .ok a := by
    cases (attachedModel config before d).attachment config p <;>
      simp [Except.isOk, Except.toBool]
  rw [hok]
  constructor
  · rintro ⟨a, ha⟩
    obtain ⟨hset, -, hfield⟩ := Model.attachment_eq_ok.mp ha
    refine ⟨⟨a, hset⟩, fun q hq hqp b c hb hc hbc => ?_⟩
    rw [hset] at hc
    cases hc
    have hmem := (mem_attachedModel hu hd hbefore).mpr ⟨q, hq, hqp.trans he, hb⟩
    simp only [Model.hasField, List.any_eq_false, decide_eq_true_eq] at hfield
    exact hfield b hmem hbc
  · rintro ⟨⟨a, hset⟩, hapart⟩
    have hnew : ∀ b ∈ (attachedModel config before d).attributes, b.fieldName ≠ a.fieldName := by
      intro b hb
      obtain ⟨q, hq, hqe, hqb⟩ := (mem_attachedModel hu hd hbefore).mp hb
      exact hapart q hq (hqe.trans he.symm) b a hqb hset
    refine ⟨a, Model.attachment_eq_ok.mpr ⟨hset, ?_, by simpa [Model.hasField] using hnew⟩⟩
    -- An attribute of this name and type would have the field.
    simp only [Model.hasAttribute, Attribute.isFor, List.any_eq_false, Bool.and_eq_true,
      decide_eq_true_eq]
    rintro b hb ⟨hname, htype⟩
    obtain ⟨q, -, -, hqb⟩ := (mem_attachedModel hu hd hbefore).mp hb
    refine hnew b hb ?_
    rw [Attribute.fieldName_ofSetter hqb, Attribute.fieldName_ofSetter hset, hname, htype]

/-- All property setters are accepted exactly if each belongs to a component that is kept, keeps the
rules and has an attribute, and no two want one field. -/
theorem refused_properties_eq_nil_iff (hu : ∀ d ∈ kept, ∀ k ∈ kept, k.id = d.id → k = d)
    (properties : List Declaration) :
    (judgeProperty config kept).refused [] properties = [] ↔
      (∀ p ∈ properties, (∃ d ∈ kept, isOwn config .property d.id p = true) ∧
        ∃ a, Attribute.ofSetter config p = .ok a) ∧
          properties.Pairwise (WantsOtherField config) := by
  refine Judgement.refused_eq_nil_iff (fun before p hbefore => ?_) properties
  rw [judgeProperty, List.any_eq_true]
  simp only [Bool.and_eq_true]
  constructor
  · rintro ⟨d, hd, hown, hok⟩
    obtain ⟨hset, hapart⟩ :=
      (attachment_isOk_iff (hu d hd) hd hbefore (isOwn_eq_true.mp hown).1).mp hok
    exact ⟨⟨⟨d, hd, hown⟩, hset⟩, hapart⟩
  · rintro ⟨⟨⟨d, hd, hown⟩, hset⟩, hapart⟩
    exact ⟨d, hd, hown,
      (attachment_isOk_iff (hu d hd) hd hbefore (isOwn_eq_true.mp hown).1).mpr ⟨hset, hapart⟩⟩

/-! ## Reset methods -/

/-- All reset methods are accepted exactly if each belongs to a component that is kept, and keeps
the rules. -/
theorem refused_resets_eq_nil_iff (config : Config) (kept resets : List Declaration) :
    (judgeReset config kept).refused [] resets = [] ↔
      ∀ p ∈ resets, ∃ d ∈ kept, isOwn config .reset d.id p = true := by
  unfold Judgement.refused judgeReset
  rw [Judgement.accepted_const, List.filter_eq_nil_iff]
  simp

/-! ## Rounds -/

/-- The candidates of a round are right by themselves, and no two are in each other's way. -/
structure Clean (config : Config) (input : Candidates) : Prop where
  components : ∀ d ∈ input.components, checkComponent config d = .ok ()
  keys : input.components.Pairwise (HasOtherKeys config)
  properties : ∀ p ∈ input.properties,
    (∃ d ∈ input.components, isOwn config .property d.id p = true) ∧
      ∃ a, Attribute.ofSetter config p = .ok a
  fields : input.properties.Pairwise (WantsOtherField config)
  resets : ∀ p ∈ input.resets, ∃ d ∈ input.components, isOwn config .reset d.id p = true

/-- A round gives up nothing exactly if no candidate is refused. -/
theorem process_diagnostics_eq_nil (config : Config) (input : Candidates) :
    (process config input).diagnostics = [] ↔
      (judgeComponent config).refused [] input.components = [] ∧
      (judgeProperty config (keptComponents config input.components)).refused []
        input.properties = [] ∧
      (judgeReset config (keptComponents config input.components)).refused []
        input.resets = [] := by
  have hlocations := congrArg List.length (process_locations config input)
  rw [List.length_map, List.length_map] at hlocations
  rw [← List.length_eq_zero_iff, hlocations, List.length_eq_zero_iff, refusedCandidates,
    List.append_eq_nil_iff, List.append_eq_nil_iff, and_assoc]

/-- A round gives up nothing exactly if its candidates are clean, in whatever order they are. -/
theorem process_diagnostics_eq_nil_iff (config : Config) (input : Candidates) :
    (process config input).diagnostics = [] ↔ Clean config input := by
  have hu : ∀ d ∈ keptComponents config input.components,
      ∀ k ∈ keptComponents config input.components, k.id = d.id → k = d :=
    fun d hd k hk he => (registered_holds config input).eq_of_id hk hd he
  rw [process_diagnostics_eq_nil, refused_properties_eq_nil_iff hu, refused_resets_eq_nil_iff,
    refused_components_eq_nil_iff]
  constructor
  · rintro ⟨⟨hcomponents, hkeys⟩, hrest⟩
    have hkept := keptComponents_eq_self
      ((refused_components_eq_nil_iff config input.components).mpr ⟨hcomponents, hkeys⟩)
    rw [hkept] at hrest
    obtain ⟨⟨hproperties, hfields⟩, hresets⟩ := hrest
    exact ⟨hcomponents, hkeys, hproperties, hfields, hresets⟩
  · rintro ⟨hcomponents, hkeys, hproperties, hfields, hresets⟩
    have hkept := keptComponents_eq_self
      ((refused_components_eq_nil_iff config input.components).mpr ⟨hcomponents, hkeys⟩)
    rw [hkept]
    exact ⟨⟨hcomponents, hkeys⟩, ⟨hproperties, hfields⟩, hresets⟩

namespace Clean

/-- No candidate is refused. -/
theorem refused_eq_nil (h : Clean config input) :
    (judgeComponent config).refused [] input.components = [] ∧
      (judgeProperty config (keptComponents config input.components)).refused []
        input.properties = [] ∧
      (judgeReset config (keptComponents config input.components)).refused []
        input.resets = [] :=
  (process_diagnostics_eq_nil config input).mp
    ((process_diagnostics_eq_nil_iff config input).mpr h)

theorem keptComponents_eq (h : Clean config input) :
    keptComponents config input.components = input.components :=
  keptComponents_eq_self h.refused_eq_nil.1

theorem acceptedProperties_eq (h : Clean config input) :
    acceptedProperties config input = input.properties :=
  Judgement.accepted_eq_self h.refused_eq_nil.2.1

theorem acceptedResets_eq (h : Clean config input) :
    acceptedResets config input = input.resets :=
  Judgement.accepted_eq_self h.refused_eq_nil.2.2

end Clean

end Round

end Metamodel
