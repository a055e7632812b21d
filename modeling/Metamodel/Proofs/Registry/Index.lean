import Metamodel.Registry

/-!
# The indexes of a registry

Both indexes of a registry say the same as its models: a component leads to the place of its model,
and a generated class to its component. No operation breaks this, since a model is only appended
under new keys and is only replaced by one with the same keys.

* `Indexed`: the indexes agree with the models.
* `Indexed.register_eq_ok`: which models can be registered, said without the indexes.
* `Indexed.components_nodup`, `Indexed.generatedNames_nodup`: no two models have a key in common.
* `Indexed.get?_eq_some`, `Indexed.owner?_eq_some`: where a component and a member lead.
* `Holds`: the models of a registry are given, declaration by declaration, by a function.
* `Holds.owner?_eq_some`, `Holds.owner?_eq_none`: where a member belongs, said by declarations.
* `Holds.replace`: another model for one declaration is another value of the function.
-/

namespace Metamodel

namespace Registry

/-- The indexes lead to the models of the registry and to nothing else. -/
structure Indexed (r : Registry) : Prop where
  /-- A component leads to the place of its model. -/
  place_iff : ∀ c i, r.places.lookup c = some i ↔ ∃ m, r.models[i]? = some m ∧ m.component = c
  /-- A generated class leads to the component of its model. -/
  origin_iff : ∀ g c, r.origins.lookup g = some c ↔
    ∃ m ∈ r.models, m.generated.qualifiedName = g ∧ m.component = c

private theorem exists_getElem?_concat {α : Type} {l : List α} {a : α} {i : Nat} {p : α → Prop} :
    (∃ b, (l ++ [a])[i]? = some b ∧ p b) ↔ (∃ b, l[i]? = some b ∧ p b) ∨ (i = l.length ∧ p a) := by
  by_cases hi : i < l.length
  · have hne : i ≠ l.length := by omega
    simp [List.getElem?_append_left hi, hne]
  · have hn : l[i]? = none := List.getElem?_eq_none (by omega)
    by_cases he : i = l.length
    · simp [he]
    · have ho : (l ++ [a])[i]? = none := List.getElem?_eq_none (by simp; omega)
      simp [hn, ho, he]

namespace Indexed

variable {r s : Registry} {m n : Model}

theorem empty : Indexed .empty :=
  ⟨by simp [Registry.empty], by simp [Registry.empty]⟩

/-- A component is in no index exactly if it has no model. -/
theorem places_eq_none (h : r.Indexed) {c : DeclId} :
    r.places.lookup c = none ↔ ∀ m ∈ r.models, m.component ≠ c := by
  constructor
  · intro hn m hm hc
    obtain ⟨i, hi⟩ := List.mem_iff_getElem?.mp hm
    have := (h.place_iff c i).mpr ⟨m, hi, hc⟩
    rw [hn] at this
    cases this
  · intro hn
    cases hl : r.places.lookup c with
    | none => rfl
    | some i =>
      obtain ⟨m, hi, hc⟩ := (h.place_iff c i).mp hl
      exact absurd hc (hn m (List.mem_of_getElem? hi))

/-- A generated class is in no index exactly if no model has it. -/
theorem origins_eq_none (h : r.Indexed) {g : String} :
    r.origins.lookup g = none ↔ ∀ m ∈ r.models, m.generated.qualifiedName ≠ g := by
  constructor
  · intro hn m hm hg
    have := (h.origin_iff g m.component).mpr ⟨m, hm, hg, rfl⟩
    rw [hn] at this
    cases this
  · intro hn
    cases hl : r.origins.lookup g with
    | none => rfl
    | some c =>
      obtain ⟨m, hm, hg, -⟩ := (h.origin_iff g c).mp hl
      exact absurd hg (hn m hm)

/-- Two models of one component stand at one place. -/
theorem place_unique (h : r.Indexed) {i j : Nat} (hi : r.models[i]? = some m)
    (hj : r.models[j]? = some n) (hc : m.component = n.component) : i = j := by
  have h₁ := (h.place_iff n.component i).mpr ⟨m, hi, hc⟩
  have h₂ := (h.place_iff n.component j).mpr ⟨n, hj, rfl⟩
  rw [h₁] at h₂
  exact Option.some.inj h₂

/-! ## Registration -/

/-- A model can be registered exactly if neither its component nor its generated class is there. -/
theorem register_eq_ok (h : r.Indexed) :
    r.register m = .ok s ↔
      (∀ n ∈ r.models, n.generated.qualifiedName ≠ m.generated.qualifiedName) ∧
        (∀ n ∈ r.models, n.component ≠ m.component) ∧
          s = { models := r.models ++ [m]
                places := (m.component, r.models.length) :: r.places
                origins := (m.generated.qualifiedName, m.component) :: r.origins } := by
  rw [← h.origins_eq_none, ← h.places_eq_none, Registry.register_eq]
  split
  · simp [*]
  · split <;> simp [*, eq_comm]

/-- Registration keeps the indexes right. -/
theorem register (h : r.Indexed) (hs : r.register m = .ok s) : s.Indexed := by
  obtain ⟨hg, hc, rfl⟩ := h.register_eq_ok.mp hs
  constructor
  · intro c i
    rw [exists_getElem?_concat, ← h.place_iff c i, List.lookup_cons]
    by_cases he : c = m.component
    · -- The component is new, so the old index knows nothing of it.
      subst he
      simp [h.places_eq_none.mpr hc, eq_comm]
    · simp [beq_false_of_ne he, Ne.symm he]
  · intro g c
    simp only [List.mem_append, List.mem_singleton, or_and_right, exists_or, exists_eq_left,
      ← h.origin_iff g c, List.lookup_cons]
    by_cases he : g = m.generated.qualifiedName
    · subst he
      simp [h.origins_eq_none.mpr hg]
    · simp [beq_false_of_ne he, Ne.symm he]

/-! ## Change -/

/-- The indexes stay right as long as components and generated classes keep their places. -/
theorem of_keys (h : r.Indexed) (hp : s.places = r.places) (ho : s.origins = r.origins)
    (hk : s.models.map (fun m => (m.component, m.generated)) =
      r.models.map fun m => (m.component, m.generated)) : s.Indexed := by
  constructor
  · intro c i
    have key : ∀ l : List Model, (∃ m, l[i]? = some m ∧ m.component = c) ↔
        ∃ k, (l.map fun m => (m.component, m.generated))[i]? = some k ∧ k.1 = c := by
      intro l
      cases hl : l[i]? <;> simp [hl]
    rw [hp, h.place_iff, key, key, hk]
  · intro g c
    have key : ∀ l : List Model, (∃ m ∈ l, m.generated.qualifiedName = g ∧ m.component = c) ↔
        ∃ k ∈ l.map (fun m => (m.component, m.generated)), k.2.qualifiedName = g ∧ k.1 = c := by
      intro l
      constructor
      · rintro ⟨m, hm, hk⟩
        exact ⟨_, List.mem_map_of_mem hm, hk⟩
      · rintro ⟨k, hl, hk⟩
        obtain ⟨m, hm, rfl⟩ := List.mem_map.mp hl
        exact ⟨m, hm, hk⟩
    rw [ho, h.origin_iff, key, key, hk]

/-! ## Keys -/

/-- No two models have one component. -/
theorem components_nodup (h : r.Indexed) : (r.models.map (·.component)).Nodup := by
  rw [List.Nodup, List.pairwise_map, List.pairwise_iff_getElem]
  intro i j hi hj hlt he
  have hij := h.place_unique (List.getElem?_eq_getElem hi) (List.getElem?_eq_getElem hj) he
  omega

/-- No two models have one generated class, since their components would be one. -/
theorem generatedNames_nodup (h : r.Indexed) :
    (r.models.map (·.generated.qualifiedName)).Nodup := by
  rw [List.Nodup, List.pairwise_map, List.pairwise_iff_getElem]
  intro i j hi hj hlt he
  have hci := (h.origin_iff _ _).mpr ⟨r.models[i], List.getElem_mem hi, he, rfl⟩
  have hcj := (h.origin_iff _ _).mpr ⟨r.models[j], List.getElem_mem hj, rfl, rfl⟩
  rw [hci] at hcj
  have hij := h.place_unique (List.getElem?_eq_getElem hi) (List.getElem?_eq_getElem hj)
    (Option.some.inj hcj)
  omega

/-! ## Access -/

/-- A place is one of a model. -/
theorem lt_of_place? (h : r.Indexed) {c : DeclId} {i : Nat} (hi : r.place? c = some i) :
    i < r.models.length := by
  obtain ⟨m, hm, -⟩ := (h.place_iff c i).mp hi
  exact (List.getElem?_eq_some_iff.mp hm).1

/-- A component leads to its model. -/
theorem get?_eq_some (h : r.Indexed) {c : DeclId} :
    r.get? c = some m ↔ m ∈ r.models ∧ m.component = c := by
  simp only [get?, place?, Option.bind_eq_some_iff, h.place_iff]
  constructor
  · rintro ⟨i, ⟨n, hn, hc⟩, hm⟩
    rw [hn] at hm
    cases hm
    exact ⟨List.mem_of_getElem? hn, hc⟩
  · rintro ⟨hm, hc⟩
    obtain ⟨i, hi⟩ := List.mem_iff_getElem?.mp hm
    exact ⟨i, ⟨m, hi, hc⟩, hi⟩

/-- A component leads nowhere exactly if it has no model. -/
theorem get?_eq_none (h : r.Indexed) {c : DeclId} :
    r.get? c = none ↔ ∀ m ∈ r.models, m.component ≠ c := by
  rw [Option.eq_none_iff_forall_ne_some]
  exact forall_congr' fun m => (not_congr h.get?_eq_some).trans not_and

/-- A member leads to the model of the component around it, and to its place. -/
theorem owner?_eq_some (h : r.Indexed) {p : Declaration} {i : Nat} :
    r.owner? p = some (i, m) ↔ r.models[i]? = some m ∧ p.enclosing = some m.component := by
  simp only [owner?, place?, Option.bind_eq_some_iff, Option.map_eq_some_iff, h.place_iff]
  constructor
  · rintro ⟨c, hp, j, ⟨n, hn, hc⟩, k, hk, he⟩
    cases he
    rw [hn] at hk
    cases hk
    exact ⟨hn, hp.trans (congrArg some hc.symm)⟩
  · rintro ⟨hm, hp⟩
    exact ⟨m.component, hp, i, ⟨m, hm, rfl⟩, m, hm, rfl⟩

/-- A member leads nowhere exactly if the component around it has no model. -/
theorem owner?_eq_none (h : r.Indexed) {p : Declaration} :
    r.owner? p = none ↔ ∀ m ∈ r.models, p.enclosing ≠ some m.component := by
  rw [Option.eq_none_iff_forall_ne_some]
  constructor
  · intro hn m hm hp
    obtain ⟨i, hi⟩ := List.mem_iff_getElem?.mp hm
    exact hn (i, m) (h.owner?_eq_some.mpr ⟨hi, hp⟩)
  · rintro hn ⟨i, m⟩ ho
    obtain ⟨hi, hp⟩ := h.owner?_eq_some.mp ho
    exact hn m (List.mem_of_getElem? hi) hp

/-! ## Replacement -/

/-- Another model with the same keys can take the place of a model. -/
theorem replace (h : r.Indexed) {i : Nat} (hm : r.models[i]? = some m)
    (hc : n.component = m.component) (hg : n.generated = m.generated) :
    (r.replace i n).Indexed := by
  refine h.of_keys rfl rfl ?_
  -- The keys at the place are those of the model that was there.
  show (r.models.set i n).map _ = _
  refine List.ext_getElem? fun j => ?_
  rw [List.map_set, List.getElem?_set]
  by_cases hij : i = j
  · subst hij
    obtain ⟨hlt, he⟩ := List.getElem?_eq_some_iff.mp hm
    simp [he, hc, hg, hlt]
  · rw [if_neg hij]

end Indexed

/-! ## Models by declaration -/

/-- The registry has, for the declarations of a list in their order, the models that a function
gives for them, each under the identity of its declaration. -/
structure Holds (r : Registry) (kept : List Declaration) (f : Declaration → Model) : Prop where
  indexed : r.Indexed
  models : r.models = kept.map f
  component : ∀ d ∈ kept, (f d).component = d.id

namespace Holds

variable {r s : Registry} {kept : List Declaration} {f g : Declaration → Model}
  {d k p : Declaration} {i j : Nat} {m n : Model}

theorem empty : Registry.empty.Holds [] f :=
  ⟨.empty, rfl, by simp⟩

theorem getElem?_models (h : r.Holds kept f) (i : Nat) : r.models[i]? = (kept[i]?).map f := by
  rw [h.models, List.getElem?_map]

/-- An identity stands at one place of the list. -/
theorem place_unique (h : r.Holds kept f) (hi : kept[i]? = some d) (hj : kept[j]? = some k)
    (he : d.id = k.id) : i = j := by
  apply h.indexed.place_unique (m := f d) (n := f k)
  · rw [h.getElem?_models, hi, Option.map_some]
  · rw [h.getElem?_models, hj, Option.map_some]
  · rw [h.component d (List.mem_of_getElem? hi), h.component k (List.mem_of_getElem? hj), he]

theorem ids_nodup (h : r.Holds kept f) : (kept.map (·.id)).Nodup := by
  have hids : r.models.map (·.component) = kept.map (·.id) := by
    rw [h.models, List.map_map]
    exact List.map_congr_left h.component
  exact hids ▸ h.indexed.components_nodup

/-- The declarations of the list are known by their identities. -/
theorem eq_of_id (h : r.Holds kept f) (hd : d ∈ kept) (hk : k ∈ kept) (he : d.id = k.id) :
    d = k := by
  obtain ⟨i, hi⟩ := List.mem_iff_getElem?.mp hd
  obtain ⟨j, hj⟩ := List.mem_iff_getElem?.mp hk
  rw [h.place_unique hi hj he, hj] at hi
  exact (Option.some.inj hi).symm

/-- Only the values of the function for the declarations of the list count. -/
theorem congr (h : r.Holds kept f) (hfg : ∀ d ∈ kept, f d = g d) : r.Holds kept g where
  indexed := h.indexed
  models := h.models.trans (List.map_congr_left hfg)
  component d hd := by rw [← hfg d hd, h.component d hd]

/-- The model of one more declaration is registered behind the others. -/
theorem register (h : r.Holds kept f) (hc : (f d).component = d.id)
    (hs : r.register (f d) = .ok s) : s.Holds (kept ++ [d]) f where
  indexed := h.indexed.register hs
  models := by rw [register_models hs, h.models, List.map_append, List.map_singleton]
  component k hk := by
    rcases List.mem_append.mp hk with hk | hk
    · exact h.component k hk
    · rw [List.mem_singleton.mp hk, hc]

/-- A member that is found with a model belongs to the declaration of that model. -/
theorem owner?_eq_some (h : r.Holds kept f) (ho : r.owner? p = some (i, m)) :
    ∃ d, kept[i]? = some d ∧ p.enclosing = some d.id ∧ m = f d := by
  obtain ⟨hi, hp⟩ := h.indexed.owner?_eq_some.mp ho
  rw [h.getElem?_models, Option.map_eq_some_iff] at hi
  obtain ⟨d, hd, rfl⟩ := hi
  refine ⟨d, hd, ?_, rfl⟩
  rw [hp, h.component d (List.mem_of_getElem? hd)]

/-- A member that is found with no model belongs to no declaration of the list. -/
theorem owner?_eq_none (h : r.Holds kept f) (ho : r.owner? p = none) :
    ∀ d ∈ kept, p.enclosing ≠ some d.id := by
  intro d hd
  have hm : f d ∈ r.models := h.models ▸ List.mem_map_of_mem hd
  rw [← h.component d hd]
  exact h.indexed.owner?_eq_none.mp ho (f d) hm

/-- Another model at the place of a declaration, with the same keys, is another value of the
function for that declaration. -/
theorem replace (h : r.Holds kept f) (hi : kept[i]? = some d)
    (hc : n.component = (f d).component) (hg : n.generated = (f d).generated) :
    (r.replace i n).Holds kept fun k => if k.id = d.id then n else f k := by
  have hm : r.models[i]? = some (f d) := by rw [h.getElem?_models, hi, Option.map_some]
  have hmodels : r.models.set i n = kept.map fun k => if k.id = d.id then n else f k := by
    apply List.ext_getElem?
    intro j
    rw [List.getElem?_set, List.getElem?_map]
    by_cases hij : i = j
    · subst hij
      have hlt := (List.getElem?_eq_some_iff.mp hm).1
      simp [hi, hlt]
    · rw [if_neg hij, h.getElem?_models]
      cases hj : kept[j]? with
      | none => rfl
      | some k =>
        have hne : k.id ≠ d.id := fun he => hij (h.place_unique hi hj he.symm)
        simp [hne]
  refine ⟨h.indexed.replace hm hc hg, hmodels, fun k hk => ?_⟩
  split
  · rename_i he
    rw [hc, h.component d (List.mem_of_getElem? hi), he]
  · exact h.component k hk

/-- A change of all models that keeps their keys is a change of all values of the function. -/
theorem map (h : r.Holds kept f) {change : Model → Model}
    (hc : ∀ m, (change m).component = m.component) (hg : ∀ m, (change m).generated = m.generated) :
    ({ r with models := r.models.map change } : Registry).Holds kept fun d => change (f d) := by
  refine ⟨h.indexed.of_keys rfl rfl ?_, ?_, fun d hd => ?_⟩
  · simp [Function.comp_def, hc, hg]
  · simp [h.models, Function.comp_def]
  · rw [hc, h.component d hd]

end Holds

end Registry

end Metamodel
