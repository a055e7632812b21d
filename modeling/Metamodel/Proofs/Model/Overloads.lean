import Metamodel.Derivation.Overload

/-!
# Where overloads come from

The search for overloads keeps what it found so far, but all that counts of this are the names. So
the overloads of a model are those of certain attributes, its sources, which can be told one by one.

* `overloads_eq`: the overloads of a model are derived from its sources, in order.
* `mem_overloadSources`: a source is an attribute of a text type whose name has no overload yet.
* `names_overloadSources_nodup`: no two sources have one name.
* `overloads_fields_perm`: the fields of the overloads do not depend on the order of attributes.
-/

namespace Metamodel

namespace Attribute

variable (config : Config) (a : Attribute)

@[simp] theorem overload_name : (a.overload config).name = a.name := rfl

@[simp] theorem overload_type : (a.overload config).type = resourceType := rfl

@[simp] theorem overload_fieldName :
    (a.overload config).fieldName = fieldNameFor a.name resourceType := rfl

@[simp] theorem overload_isOverload : (a.overload config).isOverload = true := rfl

end Attribute

namespace Model

variable {config : Config} {m : Model} {seen : List String} {a : Attribute} {rest : List Attribute}

/-- The model has neither an attribute of the name and the type of overloads nor its field. -/
def lacksOverload (m : Model) (name : String) : Bool :=
  !m.hasAttribute name resourceType && !m.hasField (Attribute.fieldNameFor name resourceType)

/-- The attributes that get an overload, given the names that have got one before. -/
def overloadSources (config : Config) (m : Model) (seen : List String) :
    List Attribute → List Attribute
  | [] => []
  | a :: rest =>
    if config.isTextType a.type && m.lacksOverload a.name && a.name ∉ seen then
      a :: m.overloadSources config (seen ++ [a.name]) rest
    else m.overloadSources config seen rest

/-- The search appends the overloads of the sources to those that were found before. -/
theorem searchOverloads_fst (config : Config) (m : Model) (pending rest : List Attribute) :
    (m.searchOverloads config pending rest).1 = pending ++
      (m.overloadSources config (pending.map (·.name)) rest).map (·.overload config) := by
  induction rest generalizing pending with
  | nil => simp [searchOverloads, overloadSources]
  | cons a rest ih =>
    have hseen : pending.any (fun o => o.name = a.name) =
        decide (a.name ∈ pending.map (·.name)) := by
      simp [List.any_eq, eq_comm]
    rw [searchOverloads, overloadSources, overloadOutcome, hseen, lacksOverload]
    cases config.isTextType a.type with
    | false => simp [ih]
    | true =>
      cases m.hasAttribute a.name resourceType with
      | true => simp [ih]
      | false =>
        by_cases hs : a.name ∈ pending.map (·.name)
        · simp only [hs, decide_true]
          simp [ih]
        · simp only [hs, decide_false]
          cases m.hasField (Attribute.fieldNameFor a.name resourceType) <;> simp [ih]

/-- The overloads of a model are those of its sources. -/
theorem overloads_eq (config : Config) (m : Model) :
    m.overloads config = (m.overloadSources config [] m.attributes).map (·.overload config) := by
  rw [overloads, searchOverloads_fst, List.map_nil, List.nil_append]

/-- A source is an attribute of a text type, under a name that has no overload yet. -/
theorem mem_overloadSources (h : a ∈ m.overloadSources config seen rest) :
    a ∈ rest ∧ config.isTextType a.type = true ∧ m.lacksOverload a.name = true ∧ a.name ∉ seen := by
  induction rest generalizing seen with
  | nil => cases h
  | cons b rest ih =>
    rw [overloadSources] at h
    split at h
    · rename_i hb
      rcases List.mem_cons.mp h with rfl | h
      · simpa [and_assoc] using hb
      · obtain ⟨ha, ht, hl, hs⟩ := ih h
        exact ⟨List.mem_cons_of_mem b ha, ht, hl, fun hn => hs (List.mem_append_left _ hn)⟩
    · obtain ⟨ha, h⟩ := ih h
      exact ⟨List.mem_cons_of_mem b ha, h⟩

/-- No two sources have one name. -/
theorem names_overloadSources_nodup (config : Config) (m : Model) (seen : List String)
    (rest : List Attribute) :
    ((m.overloadSources config seen rest).map (·.name)).Nodup := by
  induction rest generalizing seen with
  | nil => exact List.nodup_nil
  | cons a rest ih =>
    rw [overloadSources]
    split
    · rw [List.map_cons, List.nodup_cons]
      refine ⟨fun ha => ?_, ih _⟩
      obtain ⟨b, hb, hn⟩ := List.mem_map.mp ha
      exact (mem_overloadSources hb).2.2.2 (by simp [hn])
    · exact ih _

/-- A name has a source exactly if some attribute of it is of a text type, and the name lacks an
overload and has got none before. -/
theorem mem_names_overloadSources {name : String} :
    name ∈ (m.overloadSources config seen rest).map (·.name) ↔
      (∃ a ∈ rest, a.name = name ∧ config.isTextType a.type = true) ∧
        m.lacksOverload name = true ∧ name ∉ seen := by
  constructor
  · intro h
    obtain ⟨a, ha, rfl⟩ := List.mem_map.mp h
    obtain ⟨ha, ht, hl, hs⟩ := mem_overloadSources ha
    exact ⟨⟨a, ha, rfl, ht⟩, hl, hs⟩
  · rintro ⟨⟨a, ha, rfl, ht⟩, hl, hs⟩
    induction rest generalizing seen with
    | nil => cases ha
    | cons b rest ih =>
      rw [overloadSources]
      rcases List.mem_cons.mp ha with rfl | ha
      · simp [ht, hl, hs]
      · split
        · by_cases hn : a.name = b.name
          · simp [hn]
          · exact List.mem_cons_of_mem _ (ih ha (by simp [hs, hn]))
        · exact ih ha hs

/-! ## The order of attributes -/

theorem lacksOverload_of_perm {n : Model} (h : n.attributes.Perm m.attributes) (name : String) :
    n.lacksOverload name = m.lacksOverload name := by
  unfold lacksOverload hasAttribute hasField
  rw [h.any_eq, h.any_eq]

/-- The order of attributes decides which of them are sources, but not which names have one. So the
fields of the overloads are the same in any order. -/
theorem overloads_fields_perm (config : Config) {n : Model}
    (h : n.attributes.Perm m.attributes) :
    ((n.overloads config).map (·.fieldName)).Perm ((m.overloads config).map (·.fieldName)) := by
  have hfields : ∀ k : Model, (k.overloads config).map (·.fieldName) =
      ((k.overloadSources config [] k.attributes).map (·.name)).map
        (Attribute.fieldNameFor · resourceType) := by
    intro k
    rw [overloads_eq, List.map_map, List.map_map]
    rfl
  rw [hfields, hfields]
  refine List.Perm.map _ ((List.perm_ext_iff_of_nodup (names_overloadSources_nodup ..)
    (names_overloadSources_nodup ..)).mpr fun name => ?_)
  rw [mem_names_overloadSources, mem_names_overloadSources, lacksOverload_of_perm h]
  simp only [h.mem_iff]

end Model

end Metamodel
