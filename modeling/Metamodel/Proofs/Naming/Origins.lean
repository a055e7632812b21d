import Mathlib.Data.Set.Card
import Metamodel.Proofs.Naming.Shadowing
import Metamodel.Text.Upper

/-!
# Names with more than one origin

The name of an attribute is made from that of its setter, and the name of a generated class from
that of its component. A name has two origins at most: one that is kept as it is, and one that has
lost its prefix or suffix.

* `IsSetter`: the form of the methods that are renamed.
* `method_of_attributeName`: the methods that can give a name to an attribute.
* `attributeName_origins`: which methods are renamed, and which share the name of an attribute.
* `KeepsSuffix`, `componentStem_eq_iff`: the components that have a stem.
* `generatedClassName_origins`: which components share the name of a generated class.
-/

namespace Metamodel

/-- A set has two elements at most if each of them is one of two. -/
theorem encard_le_two_of_forall_mem {s : Set String} {first second : String}
    (h : ∀ name ∈ s, name = first ∨ name = second) : s.encard ≤ 2 :=
  calc s.encard
    _ ≤ ({first, second} : Set String).encard := Set.encard_le_encard h
    _ ≤ ({second} : Set String).encard + 1 := Set.encard_insert_le _ _
    _ = 2 := by rw [Set.encard_singleton, one_add_one_eq_two]

/-! ## Attributes -/

/-- The form `set[A-Z][A-Za-z0-9_]*` of a method, with the capital letter and what follows it. -/
structure IsSetter (method : String) (first : Char) (rest : List Char) : Prop where
  spelled : method = "set" ++ String.ofList (first :: rest)
  first_capital : 'A' ≤ first ∧ first ≤ 'Z'
  rest_word : ∀ c ∈ rest,
    'A' ≤ c ∧ c ≤ 'Z' ∨ 'a' ≤ c ∧ c ≤ 'z' ∨ '0' ≤ c ∧ c ≤ '9' ∨ c = '_'

theorem isUpper_iff {c : Char} : c.isUpper = true ↔ 'A' ≤ c ∧ c ≤ 'Z' :=
  decide_eq_true_iff

theorem isWordChar_iff {c : Char} :
    isWordChar c = true ↔
      'A' ≤ c ∧ c ≤ 'Z' ∨ 'a' ≤ c ∧ c ≤ 'z' ∨ '0' ≤ c ∧ c ≤ '9' ∨ c = '_' := by
  have hlower : c.isLower = true ↔ 'a' ≤ c ∧ c ≤ 'z' :=
    Bool.and_eq_true_iff.trans (and_congr decide_eq_true_iff decide_eq_true_iff)
  have hdigit : c.isDigit = true ↔ '0' ≤ c ∧ c ≤ '9' :=
    Bool.and_eq_true_iff.trans (and_congr decide_eq_true_iff decide_eq_true_iff)
  have halphanum : c.isAlphanum = (c.isUpper || c.isLower || c.isDigit) := rfl
  simp only [isWordChar, halphanum, Bool.or_eq_true, isUpper_iff, hlower, hdigit,
    decide_eq_true_eq, or_assoc]

theorem upper_toLower_ofNat :
    ∀ n : Fin 26, Text.upper (Char.ofNat (65 + n)).toLower = [Char.ofNat (65 + n)] := by
  decide

/-- A capital letter comes back from its small letter. -/
theorem upper_toLower {c : Char} (h : 'A' ≤ c ∧ c ≤ 'Z') : Text.upper c.toLower = [c] := by
  have hfirst : 65 ≤ c.toNat := h.1
  have hlast : c.toNat ≤ 90 := h.2
  have hc : c = Char.ofNat (65 + (c.toNat - 65)) := by
    rw [Nat.add_sub_cancel' hfirst, Char.ofNat_toNat]
  rw [hc]
  exact upper_toLower_ofNat ⟨c.toNat - 65, by omega⟩

/-- The prefix and the word behind it are found in exactly the methods of this form. -/
theorem setterWord?_eq_some {method : String} {first : Char} {rest : List Char} :
    setterWord? method.toList = some (first, rest) ↔ IsSetter method first rest := by
  constructor
  · intro h
    unfold setterWord? at h
    split at h
    · rename_i first' rest' hmethod
      split at h
      · rename_i hword
        cases h
        rw [Bool.and_eq_true, isUpper_iff, List.all_eq_true] at hword
        exact ⟨String.toList_inj.mp (by simp [hmethod]), hword.1,
          fun c hc => isWordChar_iff.mp (hword.2 c hc)⟩
      · cases h
    · cases h
  · rintro ⟨rfl, hfirst, hrest⟩
    have hword : (first.isUpper && rest.all isWordChar) = true := by
      rw [Bool.and_eq_true, isUpper_iff, List.all_eq_true]
      exact ⟨hfirst, fun c hc => isWordChar_iff.mpr (hrest c hc)⟩
    simp [setterWord?, hword]

namespace IsSetter

variable {method : String} {first : Char} {rest : List Char}

/-- A setter gives its word to the attribute, with a small letter in front. -/
theorem attributeName_eq (h : IsSetter method first rest) :
    attributeName method = String.ofList (first.toLower :: rest) :=
  attributeName_of_setter (setterWord?_eq_some.mpr h)

/-- A setter is longer than the name that it gives. -/
theorem attributeName_ne (h : IsSetter method first rest) : attributeName method ≠ method := by
  rw [h.attributeName_eq, h.spelled]
  intro he
  have hlength := congrArg String.length he
  simp at hlength

/-- A setter is `set` and the name of its attribute, capitalized. -/
theorem eq_capitalize (h : IsSetter method first rest) :
    method = "set" ++ Text.capitalize (attributeName method) := by
  rw [h.attributeName_eq]
  simpa [Text.capitalize, upper_toLower h.first_capital] using h.spelled

end IsSetter

/-- Either the method is a setter, or it gives its own name to the attribute. -/
theorem attributeName_cases (method : String) :
    (∃ first rest, IsSetter method first rest) ∨ attributeName method = method := by
  cases hw : setterWord? method.toList with
  | none => exact .inr (attributeName_of_not_setter hw)
  | some word => exact .inl ⟨word.1, word.2, setterWord?_eq_some.mp hw⟩

/-- A method is the name of its attribute, or it is that name behind `set`, capitalized. -/
theorem method_of_attributeName {method name : String} (h : attributeName method = name) :
    method = name ∨ method = "set" ++ Text.capitalize name := by
  subst h
  rcases attributeName_cases method with ⟨first, rest, hsetter⟩ | hself
  · exact .inr hsetter.eq_capitalize
  · exact .inl hself.symm

/-- A method is renamed exactly if it is a setter, and then it loses `set` and has a small letter in
front. Two methods that give one name to their attributes are that name, and `set` with that name
capitalized. So no third method gives it. -/
theorem attributeName_origins :
    (∀ method, attributeName method ≠ method ↔ ∃ first rest, IsSetter method first rest) ∧
    (∀ method first rest, IsSetter method first rest →
      attributeName method = String.ofList (first.toLower :: rest)) ∧
    (∀ method other name, method ≠ other → attributeName method = name →
      attributeName other = name →
        ({method, other} : Set String) = {name, "set" ++ Text.capitalize name}) ∧
    ∀ name, {method | attributeName method = name}.encard ≤ 2 := by
  refine ⟨fun method => ?_, fun method first rest h => h.attributeName_eq,
    fun method other name hne hm ho => ?_, fun name => ?_⟩
  · constructor
    · exact (attributeName_cases method).resolve_right
    · rintro ⟨first, rest, h⟩
      exact h.attributeName_ne
  · rw [Set.pair_eq_pair_iff]
    rcases method_of_attributeName hm with rfl | hm
    · exact .inl ⟨rfl, (method_of_attributeName ho).resolve_left hne.symm⟩
    · exact .inr ⟨hm, (method_of_attributeName ho).resolve_right (hm ▸ hne.symm)⟩
  · exact encard_le_two_of_forall_mem fun method hm => method_of_attributeName hm

/-- `setTitle` is renamed to `title`, and shares that name with the method `title` alone. -/
theorem attributeName_origins_title :
    IsSetter "setTitle" 'T' "itle".toList ∧
      attributeName "setTitle" = String.ofList ('T'.toLower :: "itle".toList) ∧
      attributeName "setTitle" = "title" ∧ attributeName "title" = "title" ∧
      ({"setTitle", "title"} : Set String) = {"title", "set" ++ Text.capitalize "title"} := by
  have hsetter : IsSetter "setTitle" 'T' "itle".toList := setterWord?_eq_some.mp (by decide)
  have hlong : attributeName "setTitle" = "title" := by decide
  have hshort : attributeName "title" = "title" := by decide
  exact ⟨hsetter, attributeName_origins.2.1 _ _ _ hsetter, hlong, hshort,
    attributeName_origins.2.2.1 _ _ _ (by decide) hlong hshort⟩

/-! ## Generated classes -/

variable {config : Config} {name stem : String}

/-- A component is its stem, with or without the suffix. -/
theorem component_of_componentStem (h : componentStem config name = stem) :
    name = stem ∨ name = stem ++ config.stripSuffix := by
  subst h
  rcases componentStem_cases config name with ⟨stem, -, hname, hstem⟩ | hself
  · exact .inr (by rw [hstem, ← hname])
  · exact .inl hself.symm

theorem componentStem_of_suffix_empty (hs : config.stripSuffix = "") :
    componentStem config name = name := by
  simp [componentStem, hs]

/-- The name does not end with the suffix that is removed, or it is nothing else. -/
def KeepsSuffix (config : Config) (name : String) : Prop :=
  (¬ ∃ base, name = base ++ config.stripSuffix) ∨ name = config.stripSuffix

/-- The names that are their own stems. -/
theorem componentStem_eq_self_iff (hs : config.stripSuffix ≠ "") :
    componentStem config name = name ↔ KeepsSuffix config name := by
  constructor
  · intro h
    by_cases hends : ∃ base, name = base ++ config.stripSuffix
    · obtain ⟨base, rfl⟩ := hends
      by_cases hbase : base = ""
      · exact .inr (by rw [hbase, String.empty_append])
      · -- The suffix is removed here, and it is not empty.
        rw [componentStem_append hs hbase, eq_comm, String.append_eq_left_iff] at h
        exact absurd h hs
    · exact .inl hends
  · intro h
    rcases componentStem_cases config name with ⟨base, hbase, hname, -⟩ | hself
    · rcases h with hnone | rfl
      · exact absurd ⟨base, hname⟩ hnone
      · exact absurd (String.append_eq_right_iff.mp hname.symm) hbase
    · exact hself

/-- A stem is that of itself with the suffix, and of itself if it keeps the suffix. -/
theorem componentStem_eq_iff (hs : config.stripSuffix ≠ "") :
    componentStem config name = stem ↔
      stem ≠ "" ∧ name = stem ++ config.stripSuffix ∨ name = stem ∧ KeepsSuffix config stem := by
  constructor
  · rintro rfl
    rcases componentStem_cases config name with ⟨stem, hne, hname, hstem⟩ | hself
    · rw [hstem]
      exact .inl ⟨hne, hname⟩
    · rw [hself]
      exact .inr ⟨rfl, (componentStem_eq_self_iff hs).mp hself⟩
  · rintro (⟨hne, rfl⟩ | ⟨rfl, hkept⟩)
    · exact componentStem_append hs hne
    · exact (componentStem_eq_self_iff hs).mpr hkept

/-- Of two names with one stem, one has lost the suffix and the other one keeps it. -/
theorem componentStem_collides_iff (hs : config.stripSuffix ≠ "") {component other : String} :
    component ≠ other ∧ componentStem config component = componentStem config other ↔
      ∃ base, base ≠ "" ∧
        ({component, other} : Set String) = {base, base ++ config.stripSuffix} ∧
        KeepsSuffix config base := by
  constructor
  · rintro ⟨hne, h⟩
    generalize ho : componentStem config other = base at h
    rw [componentStem_eq_iff hs] at h ho
    rcases h with ⟨hbase, rfl⟩ | ⟨rfl, hkept⟩
    · rcases ho with ⟨-, rfl⟩ | ⟨rfl, hkept⟩
      · exact absurd rfl hne
      · exact ⟨_, hbase, Set.pair_comm _ _, hkept⟩
    · rcases ho with ⟨hbase, rfl⟩ | ⟨rfl, -⟩
      · exact ⟨_, hbase, rfl, hkept⟩
      · exact absurd rfl hne
  · rintro ⟨base, hbase, hpair, hkept⟩
    have hlong := componentStem_append hs hbase
    have hshort := (componentStem_eq_self_iff hs).mpr hkept
    have hdiff : base ≠ base ++ config.stripSuffix := fun h =>
      hs (String.append_eq_left_iff.mp h.symm)
    rcases Set.pair_eq_pair_iff.mp hpair with ⟨rfl, rfl⟩ | ⟨rfl, rfl⟩
    · exact ⟨hdiff, hshort.trans hlong.symm⟩
    · exact ⟨hdiff.symm, hlong.trans hshort.symm⟩

/-- What is appended to two names does not tell them apart. -/
theorem generatedClassName_eq_iff {component other : String} :
    generatedClassName config component = generatedClassName config other ↔
      componentStem config component = componentStem config other := by
  simp only [generatedClassName, String.append_left_inj]

/-- Two components share the name of a generated class exactly if one of them is the other with the
suffix, and the shorter one is not empty and keeps the suffix. So no three components share it,
whatever is appended. -/
theorem generatedClassName_origins (config : Config) :
    (∀ component other : String,
      component ≠ other ∧ generatedClassName config component = generatedClassName config other ↔
        config.stripSuffix ≠ "" ∧ ∃ base, base ≠ "" ∧
          ({component, other} : Set String) = {base, base ++ config.stripSuffix} ∧
          KeepsSuffix config base) ∧
    ∀ generated, {component | generatedClassName config component = generated}.encard ≤ 2 := by
  refine ⟨fun component other => ?_, fun generated => ?_⟩
  · rw [generatedClassName_eq_iff]
    by_cases hs : config.stripSuffix = ""
    · simp [componentStem_of_suffix_empty hs, hs]
    · rw [componentStem_collides_iff hs]
      exact (and_iff_right hs).symm
  · rcases Set.eq_empty_or_nonempty {component | generatedClassName config component = generated}
      with hnone | ⟨origin, ho⟩
    · rw [hnone, Set.encard_empty]
      exact zero_le
    · exact encard_le_two_of_forall_mem fun component hc =>
        component_of_componentStem (generatedClassName_eq_iff.mp (hc.trans ho.symm))

/-- `View` keeps the suffix, since nothing else would be left of it, and `ViewView` loses one. -/
example : generatedClassName .standard "ViewView" = generatedClassName .standard "View" := by decide

end Metamodel
