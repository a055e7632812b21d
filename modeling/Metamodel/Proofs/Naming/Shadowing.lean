import Metamodel.Derivation.Model
import Metamodel.Proofs.Problems.Pairs
import Metamodel.Rules.Component

/-!
# Generated classes with the name of their component

A generated class stands in the package of its component, so it must not have its name. The name
is made by removing one suffix and appending others. A valid configuration appends something, but
what it appends may be what was removed.

* `mayShadow_of_validate`: a valid configuration appends something.
* `componentStem_cases`, `componentStem_append`: what is left of a name without the suffix.
* `generatedClassName_eq_self`: which names come back.
* `shadows_iff_of_valid`: when the generated class has the name of its component, and which valid
  configurations exclude it.
-/

namespace Metamodel

/-! ## Valid configurations -/

namespace Problems

@[simp] theorem messages_addFor (p : Problems) (key message : String) :
    (p.addFor key message).messages = p.messages := rfl

/-- What is reported under keys is no problem at the root. -/
theorem messages_foldl_addFor (violations : List (String × String)) (p : Problems) :
    (violations.foldl (fun p (key, message) => p.addFor key message) p).messages = p.messages := by
  induction violations generalizing p with
  | nil => rfl
  | cons violation rest ih => rw [List.foldl_cons, ih, messages_addFor]

/-- Without problems there is none at the root. -/
theorem messages_of_isEmpty {p : Problems} (h : p.isEmpty = true) : p.messages = [] := by
  cases p with
  | node messages children =>
    rw [isEmpty, Bool.and_eq_true] at h
    exact List.isEmpty_iff.mp h.1

end Problems

namespace Config

/-- Settings that are wrong on their own are reported under their keys, so the only problem at the
root is that of the suffixes. -/
theorem messages_problems (config : Config) :
    config.problems.messages = if config.mayShadow then [shadowingMessage] else [] := by
  rw [problems, Problems.messages_foldl_addFor]
  split <;> rfl

/-- A valid configuration appends something to the names of components. -/
theorem mayShadow_of_validate {config : Config} (h : config.validate = .ok ()) :
    config.mayShadow = false := by
  have hnone := Problems.messages_of_isEmpty (Problems.toExcept_eq_ok.mp h)
  rw [messages_problems] at hnone
  cases hm : config.mayShadow with
  | false => rfl
  | true => simp [hm] at hnone

theorem suffix_ne_empty {config : Config} (h : config.mayShadow = false) :
    config.modelSuffix ++ config.generatedSuffix ≠ "" := by
  intro he
  obtain ⟨hm, hg⟩ := String.append_eq_empty_iff.mp he
  simp [mayShadow, hm, hg] at h

end Config

/-! ## Names -/

/-- Classes of one package are told apart by their names. -/
theorem ClassRef.qualifiedName_inj {package name other : String} :
    (ClassRef.mk package name).qualifiedName = (ClassRef.mk package other).qualifiedName ↔
      name = other := by
  unfold qualifiedName
  split
  · rfl
  · exact String.append_right_inj _

variable {config : Config} {name stem : String}

/-- Either the suffix is removed and something is left, or the name is left as it is. -/
theorem componentStem_cases (config : Config) (name : String) :
    (∃ stem, stem ≠ "" ∧ name = stem ++ config.stripSuffix ∧ componentStem config name = stem) ∨
      componentStem config name = name := by
  unfold componentStem
  split
  · exact .inr rfl
  · split
    · rename_i stem hs
      split
      · exact .inr rfl
      · rename_i hne
        exact .inl ⟨stem, by simpa using hne, stripSuffix?_eq_some.mp hs, rfl⟩
    · exact .inr rfl

/-- What is not empty is left of a name that ends with the suffix. -/
theorem componentStem_append (hs : config.stripSuffix ≠ "") (hne : stem ≠ "") :
    componentStem config (stem ++ config.stripSuffix) = stem := by
  have hstrip : stripSuffix? config.stripSuffix (stem ++ config.stripSuffix) = some stem :=
    stripSuffix?_eq_some.mpr rfl
  simp [componentStem, hs, hstrip, hne]

/-- If something is appended, a name comes back exactly if its suffix is what is appended. -/
theorem generatedClassName_eq_self (h : config.mayShadow = false) :
    generatedClassName config name = name ↔
      config.stripSuffix = config.modelSuffix ++ config.generatedSuffix ∧
        ∃ stem, stem ≠ "" ∧ name = stem ++ config.stripSuffix := by
  have hsuffix := Config.suffix_ne_empty h
  unfold generatedClassName
  rw [String.append_assoc]
  constructor
  · intro he
    rcases componentStem_cases config name with ⟨stem, hne, hname, hstem⟩ | hstem
    · rw [hstem, hname] at he
      exact ⟨((String.append_right_inj stem).mp he).symm, stem, hne, hname⟩
    · -- Nothing is removed, so something would have to be appended in vain.
      rw [hstem, String.append_eq_left_iff] at he
      exact absurd he hsuffix
  · rintro ⟨hs, stem, hne, rfl⟩
    rw [componentStem_append (hs ▸ hsuffix) hne, ← hs]

namespace Model

/-- A generated class stands in the package of its component, so that only the names count. -/
theorem generated_eq_component (config : Config) (d : Declaration) :
    (ofComponent config d).generated.qualifiedName = d.classRef.qualifiedName ↔
      Metamodel.generatedClassName config d.name = d.name :=
  ClassRef.qualifiedName_inj

/-- Under a valid configuration a generated class has the name of its component exactly if the
suffix that is removed is also what is appended, and the component has this suffix behind something
else. So a valid configuration excludes this for all components exactly if the suffix that it
removes is not what it appends. -/
theorem shadows_iff_of_valid (hvalid : config.validate = .ok ()) :
    (∀ d : Declaration,
      (ofComponent config d).generated.qualifiedName = d.classRef.qualifiedName ↔
        config.stripSuffix = config.modelSuffix ++ config.generatedSuffix ∧
          ∃ stem, stem ≠ "" ∧ d.name = stem ++ config.stripSuffix) ∧
    ((∀ d : Declaration,
      (ofComponent config d).generated.qualifiedName ≠ d.classRef.qualifiedName) ↔
        config.stripSuffix ≠ config.modelSuffix ++ config.generatedSuffix) := by
  have hmay := Config.mayShadow_of_validate hvalid
  have hshadows : ∀ d : Declaration,
      (ofComponent config d).generated.qualifiedName = d.classRef.qualifiedName ↔
        config.stripSuffix = config.modelSuffix ++ config.generatedSuffix ∧
          ∃ stem, stem ≠ "" ∧ d.name = stem ++ config.stripSuffix :=
    fun d => (generated_eq_component config d).trans (generatedClassName_eq_self hmay)
  refine ⟨hshadows, fun hnone hs => ?_, fun hs d he => hs ((hshadows d).mp he).1⟩
  let card : Declaration := .ofClass "com.example" ("Card" ++ config.stripSuffix)
  exact hnone card ((hshadows card).mpr ⟨hs, "Card", by decide, rfl⟩)

theorem standard_shadows_nothing :
    Config.standard.validate = .ok () ∧
      ∀ d : Declaration,
        (ofComponent .standard d).generated.qualifiedName ≠ d.classRef.qualifiedName := by
  have hvalid : Config.standard.validate = .ok () :=
    Problems.toExcept_eq_ok.mpr (by decide +kernel)
  exact ⟨hvalid, (shadows_iff_of_valid hvalid).2.mpr (by decide)⟩

/-- A configuration that removes what it appends. -/
def modelsKeepSuffix : Config :=
  { Config.standard with stripSuffix := "Model" }

/-- A component that ends with what is removed. -/
def cardModel : Declaration :=
  (Declaration.ofClass "com.example" "CardModel").extending "android.view.View"

/-- A valid configuration lets a component be shadowed: `CardModel` loses `Model` and gets it
again. -/
theorem shadowed_cardModel :
    modelsKeepSuffix.validate = .ok () ∧ checkComponent modelsKeepSuffix cardModel = .ok () ∧
      (ofComponent modelsKeepSuffix cardModel).generated.qualifiedName =
        cardModel.classRef.qualifiedName :=
  ⟨Problems.toExcept_eq_ok.mpr (by decide +kernel),
    checkComponent_eq_ok.mpr (by decide), by decide⟩

end Model

end Metamodel
