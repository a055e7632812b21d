import Metamodel.Proofs.Model.Overloads

/-!
# The effect of deriving overloads

The search for overloads passes over an attribute for one of four reasons, and looks for one of
them at what it found before. Whether an attribute gets an overload can be said without the search,
by its place among the attributes alone, whatever names and fields they have. The attributes need
not stem from declarations: names may be repeated and fields may be any.

* `IsSource`: what it takes for an attribute to get an overload.
* `overloads_eq_map_sources`: the overloads of a model are those of its sources.
* `synthesize_exact`: the derivation appends one overload for each source and changes nothing else.
* `synthesize_idempotent`: a second derivation adds nothing.
-/

namespace Metamodel

namespace Model

variable {config : Config} {m : Model} {seen : List String} {before rest : List Attribute}
  {a : Attribute}

/-- Behind the attributes before it, an attribute of the model is the first of a text type with its
name, and the model has neither an attribute of this name and type `int` nor the field of one. -/
structure IsSource (config : Config) (m : Model) (before : List Attribute) (a : Attribute) :
    Prop where
  isText : config.isTextType a.type = true
  isFirst : ∀ b ∈ before, config.isTextType b.type = true → b.name ≠ a.name
  noResource : ∀ b ∈ m.attributes, b.name = a.name → b.type ≠ .primitive .int
  noField : ∀ b ∈ m.attributes, b.fieldName ≠ Attribute.fieldNameFor a.name (.primitive .int)

instance : Decidable (m.IsSource config before a) :=
  decidable_of_iff
    (config.isTextType a.type = true ∧
      (∀ b ∈ before, config.isTextType b.type = true → b.name ≠ a.name) ∧
      (∀ b ∈ m.attributes, b.name = a.name → b.type ≠ .primitive .int) ∧
      ∀ b ∈ m.attributes, b.fieldName ≠ Attribute.fieldNameFor a.name (.primitive .int))
    ⟨fun ⟨ht, hf, hr, hn⟩ => ⟨ht, hf, hr, hn⟩,
      fun h => ⟨h.isText, h.isFirst, h.noResource, h.noField⟩⟩

/-- The attributes that get an overload, each told by its place. -/
def sources (config : Config) (m : Model) : List Attribute :=
  (m.attributes.zipIdx.filter fun p => m.IsSource config (m.attributes.take p.2) p.1).map (·.1)

theorem lacksOverload_eq_true {name : String} :
    m.lacksOverload name = true ↔ (∀ b ∈ m.attributes, b.name = name → b.type ≠ .primitive .int) ∧
      ∀ b ∈ m.attributes, b.fieldName ≠ Attribute.fieldNameFor name (.primitive .int) := by
  show _ ↔ (∀ b ∈ m.attributes, b.name = name → b.type ≠ resourceType) ∧
    ∀ b ∈ m.attributes, b.fieldName ≠ Attribute.fieldNameFor name resourceType
  simp [lacksOverload, hasAttribute, hasField, Attribute.isFor]

theorem isSource_iff : m.IsSource config before a ↔ config.isTextType a.type = true ∧
    m.lacksOverload a.name = true ∧
      ∀ b ∈ before, config.isTextType b.type = true → b.name ≠ a.name := by
  rw [lacksOverload_eq_true]
  exact ⟨fun h => ⟨h.isText, ⟨h.noResource, h.noField⟩, h.isFirst⟩,
    fun ⟨ht, ⟨hr, hn⟩, hf⟩ => ⟨ht, hf, hr, hn⟩⟩

/-- The names that have got an overload are those of the text attributes before, as far as a name
that lacks one is asked for. -/
def SeenBefore (config : Config) (m : Model) (seen : List String) (before : List Attribute) :
    Prop :=
  ∀ name, m.lacksOverload name = true →
    (name ∈ seen ↔ ∃ b ∈ before, config.isTextType b.type = true ∧ b.name = name)

/-- The search finds a source at an attribute exactly if it is one by its place. -/
theorem SeenBefore.isSource_iff (h : m.SeenBefore config seen before) :
    (config.isTextType a.type && m.lacksOverload a.name && a.name ∉ seen) = true ↔
      m.IsSource config before a := by
  rw [Model.isSource_iff, Bool.and_eq_true, Bool.and_eq_true, and_assoc, decide_eq_true_iff]
  refine and_congr_right fun _ => and_congr_right fun hl => ?_
  rw [h a.name hl]
  simp only [not_exists, not_and, ne_eq]

/-- What one turn of the search keeps. -/
theorem SeenBefore.concat (h : m.SeenBefore config seen before) (a : Attribute) :
    m.SeenBefore config
      (if config.isTextType a.type && m.lacksOverload a.name && a.name ∉ seen then seen ++ [a.name]
        else seen) (before ++ [a]) := by
  intro name hl
  have hmem : (∃ b ∈ before ++ [a], config.isTextType b.type = true ∧ b.name = name) ↔
      name ∈ seen ∨ (config.isTextType a.type = true ∧ a.name = name) := by
    rw [h name hl]
    simp [or_and_right, exists_or]
  rw [hmem]
  split
  · rename_i hs
    have ht : config.isTextType a.type = true := by simp_all
    simp [ht, eq_comm]
  · rename_i hs
    constructor
    · exact .inl
    · rintro (hseen | ⟨ht, rfl⟩)
      · exact hseen
      · simpa [ht, hl] using hs

/-- The search tells the sources of the attributes behind those that it has passed by their
places. -/
theorem SeenBefore.overloadSources_eq (h : m.SeenBefore config seen before)
    (hm : m.attributes = before ++ rest) :
    m.overloadSources config seen rest = ((rest.zipIdx before.length).filter fun p =>
      m.IsSource config (m.attributes.take p.2) p.1).map (·.1) := by
  induction rest generalizing seen before with
  | nil => rfl
  | cons a rest ih =>
    have htake : m.attributes.take before.length = before := by simp [hm]
    have hrest := ih (h.concat a) (by simp [hm])
    rw [List.length_append, List.length_singleton] at hrest
    rw [overloadSources, List.zipIdx_cons, List.filter_cons, htake]
    by_cases hs : m.IsSource config before a
    · have hfound := h.isSource_iff.mpr hs
      rw [if_pos hfound] at hrest ⊢
      rw [hrest]
      simp [hs]
    · have hpassed := mt h.isSource_iff.mp hs
      rw [if_neg hpassed] at hrest ⊢
      rw [hrest]
      simp [hs]

/-- The overloads of a model are those of its sources, in order. -/
theorem overloads_eq_map_sources (config : Config) (m : Model) :
    m.overloads config = (m.sources config).map (·.overload config) := by
  have hnone : m.SeenBefore config [] [] := fun name _ => by simp
  rw [overloads_eq, hnone.overloadSources_eq rfl]
  rfl

/-- The derivation of overloads changes nothing of a model but its attributes. Behind them, in
order, comes one attribute for each source, of type `int` and with the mark of resources as the only
one on both accessors; it names the field of the source and has its name, setter and flag. There are
as many overloads as sources. In place the derivation always succeeds: it leaves this model and
returns the number of its sources. -/
theorem synthesize_exact (config : Config) (m : Model) :
    m.synthesize config =
        { m with
          attributes := m.attributes ++ (m.sources config).map fun a =>
            { name := a.name
              fieldName := Attribute.fieldNameFor a.name (.primitive .int)
              type := .primitive .int
              originSetter := a.originSetter
              provenance := .overload a.fieldName
              flags := { AttributeFlags.standard with optional := a.flags.optional }
              getterMarks := [.ofName config.resourceMarker]
              setterMarks := [.ofName config.resourceMarker]
              defaultValue := none } } ∧
      (m.overloads config).length = (m.sources config).length ∧
      ∀ log, (synthesizeInPlace config).run ⟨m, log⟩ =
        .ok (m.sources config).length ⟨m.synthesize config, log ++ m.synthesisEvents config⟩ := by
  have hlength : (m.overloads config).length = (m.sources config).length := by
    rw [overloads_eq_map_sources, List.length_map]
  refine ⟨?_, hlength, fun log => ?_⟩
  · rw [synthesize_eq, overloads_eq_map_sources]
    rfl
  · rw [synthesizeInPlace_eq_ok, hlength]

/-! ## A second derivation -/

/-- An overload is of no text type. -/
theorem isTextType_overload (config : Config) (a : Attribute) :
    config.isTextType (a.overload config).type = false := rfl

/-- What lacks an overload after the derivation lacked one before. -/
theorem lacksOverload_of_synthesize {name : String}
    (h : (m.synthesize config).lacksOverload name = true) : m.lacksOverload name = true := by
  rw [lacksOverload_eq_true, synthesize_attributes] at h
  exact lacksOverload_eq_true.mpr ⟨fun b hb => h.1 b (List.mem_append_left _ hb),
    fun b hb => h.2 b (List.mem_append_left _ hb)⟩

/-- After the derivation no text attribute lacks an overload: it was a source, it shares the name of
one, or the reason for which it was passed over is still there. -/
theorem lacksOverload_synthesize (ha : a ∈ m.attributes)
    (ht : config.isTextType a.type = true) :
    (m.synthesize config).lacksOverload a.name = false := by
  rw [Bool.eq_false_iff]
  intro hl
  have hname : a.name ∈ (m.overloadSources config [] m.attributes).map (·.name) :=
    mem_names_overloadSources.mpr ⟨⟨a, ha, rfl, ht⟩, lacksOverload_of_synthesize hl, by simp⟩
  obtain ⟨s, hs, hn⟩ := List.mem_map.mp hname
  have ho : s.overload config ∈ (m.synthesize config).attributes := by
    rw [synthesize_attributes, overloads_eq]
    exact List.mem_append_right _ (List.mem_map_of_mem hs)
  exact (lacksOverload_eq_true.mp hl).1 _ ho hn rfl

/-- A second derivation finds no source, whatever the model was: it adds nothing, and the model
stays as it is. In place it returns zero and leaves the model of the first one. -/
theorem synthesize_idempotent (config : Config) (m : Model) :
    ((m.synthesize config).overloads config).length = 0 ∧
      (m.synthesize config).synthesize config = m.synthesize config ∧
      ∀ log, (synthesizeInPlace config).run ⟨m.synthesize config, log⟩ =
        .ok 0 ⟨m.synthesize config, log ++ (m.synthesize config).synthesisEvents config⟩ := by
  have hnone : (m.synthesize config).overloads config = [] := by
    rw [overloads_eq, List.map_eq_nil_iff, List.eq_nil_iff_forall_not_mem]
    intro a ha
    obtain ⟨ha, ht, hl, -⟩ := mem_overloadSources ha
    rw [synthesize_attributes, overloads_eq] at ha
    rcases List.mem_append.mp ha with ha | ha
    · rw [lacksOverload_synthesize ha ht] at hl
      cases hl
    · obtain ⟨s, -, rfl⟩ := List.mem_map.mp ha
      rw [isTextType_overload] at ht
      cases ht
  have hlength : ((m.synthesize config).overloads config).length = 0 := by
    rw [hnone, List.length_nil]
  have hsame : (m.synthesize config).synthesize config = m.synthesize config := by
    rw [(m.synthesize config).synthesize_eq, hnone, appendAttributes, List.append_nil]
  refine ⟨hlength, hsame, fun log => ?_⟩
  rw [synthesizeInPlace_eq_ok, hlength, hsame]

end Model

end Metamodel
