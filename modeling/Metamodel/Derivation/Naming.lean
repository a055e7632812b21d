import Metamodel.Config.Basic

/-!
# Names of attributes and generated classes

An attribute is named for the method that sets it, without `set` in front if the rest is a word
that starts with a capital letter. A generated class is named for its component, without the
configured suffix if something is left before it, and with the suffixes of models behind.

* `attributeName_of_setter`, `attributeName_of_not_setter`: which names are changed.
* `stripSuffix?_eq_some`: what a suffix is removed from.
-/

namespace Metamodel

/-! ## Attributes -/

/-- A letter, digit or underscore of ASCII. -/
def isWordChar (c : Char) : Bool :=
  c.isAlphanum || c = '_'

/-- The part of a method name behind `set`, if it is a word that starts with a capital letter: the
capital letter and what follows it. -/
def setterWord? : List Char → Option (Char × List Char)
  | 's' :: 'e' :: 't' :: first :: rest =>
    if first.isUpper && rest.all isWordChar then some (first, rest) else none
  | _ => none

/-- The name of the attribute that a method sets. -/
def attributeName (method : String) : String :=
  match setterWord? method.toList with
  | some (first, rest) => String.ofList (first.toLower :: rest)
  | none => method

/-- A method that sets a word loses `set`, and the word starts in lower case. -/
theorem attributeName_of_setter {method : String} {first : Char} {rest : List Char}
    (h : setterWord? method.toList = some (first, rest)) :
    attributeName method = String.ofList (first.toLower :: rest) := by
  simp [attributeName, h]

/-- Any other method gives its name to the attribute. -/
theorem attributeName_of_not_setter {method : String} (h : setterWord? method.toList = none) :
    attributeName method = method := by
  simp [attributeName, h]

/-! ## Generated classes -/

/-- What stands before a suffix, if the name ends with it. -/
def stripSuffix? (suffix name : String) : Option String :=
  if suffix.toList.isSuffixOf name.toList then
    some (String.ofList (name.toList.take (name.toList.length - suffix.toList.length)))
  else none

/-- A suffix is removed from what ends with it. -/
theorem stripSuffix?_eq_some {suffix name base : String} :
    stripSuffix? suffix name = some base ↔ name = base ++ suffix := by
  unfold stripSuffix?
  constructor
  · intro h
    split at h
    · rename_i hs
      obtain ⟨t, ht⟩ := List.isSuffixOf_iff_suffix.1 hs
      simp only [Option.some.injEq] at h
      subst h
      apply String.toList_inj.1
      simp [← ht]
    · cases h
  · rintro rfl
    have hs : suffix.toList.isSuffixOf (base ++ suffix).toList = true :=
      List.isSuffixOf_iff_suffix.2 ⟨base.toList, by simp⟩
    rw [if_pos hs]
    simp

/-- The name of a component without the configured suffix, unless nothing would be left. -/
def componentStem (config : Config) (component : String) : String :=
  if config.stripSuffix.isEmpty then component
  else
    match stripSuffix? config.stripSuffix component with
    | some stem => if stem.isEmpty then component else stem
    | none => component

/-- The name of the class that is generated for a component. -/
def generatedClassName (config : Config) (component : String) : String :=
  componentStem config component ++ config.modelSuffix ++ config.generatedSuffix

end Metamodel
