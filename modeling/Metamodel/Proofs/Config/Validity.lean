import Mathlib.Data.List.Perm.Basic
import Mathlib.Data.Set.List
import Metamodel.Config.Basic
import Metamodel.Proofs.Problems.Pairs
import Metamodel.Proofs.Text.Trimming
import Std.Data.String.ToNat

/-!
# What is wrong with a configuration

A configuration is checked rule by rule, and the entries of its two lists one by one. Everything
that is wrong is reported once, under a key of its own: the keys of the settings differ, and those
of entries end with an index. So no two reports meet under one key, whatever the order of checking
is, and the reports come in the order of their keys.

* `Fault`: a rule, or an entry that breaks one, with the key and the message of its report.
* `Fault.key_injective`: different faults have different keys.
* `reports_eq`: the faults in the order of checking.
* `validate_exact`: when a configuration is valid, and what is reported if it is not.
-/

namespace Metamodel

namespace Config

open scoped List

/-! ## Rules -/

/-- The types that have to be qualified. -/
inductive BaseType where
  /-- The type that every component extends. -/
  | view
  /-- The generic class that every model extends. -/
  | model
deriving DecidableEq, Repr

/-- The marks that have to be named. -/
inductive Marker where
  | component
  | property
  | reset
  /-- The mark of parameters that name a resource. -/
  | resource
deriving DecidableEq, Repr

/-- The settings with any number of entries. -/
inductive ListSetting where
  | nullableMarkers
  | textTypes
deriving DecidableEq, Repr

namespace BaseType

def key : BaseType → String
  | view => "base_view_type"
  | model => "base_model_type"

def value (config : Config) : BaseType → String
  | view => config.baseViewType
  | model => config.baseModelType

end BaseType

namespace Marker

def key : Marker → String
  | component => "component_marker"
  | property => "property_marker"
  | reset => "reset_marker"
  | resource => "resource_marker"

def value (config : Config) : Marker → String
  | component => config.componentMarker
  | property => config.propertyMarker
  | reset => config.resetMarker
  | resource => config.resourceMarker

end Marker

namespace ListSetting

def key : ListSetting → String
  | nullableMarkers => "nullable_markers"
  | textTypes => "text_types"

def values (config : Config) : ListSetting → List String
  | nullableMarkers => config.nullableMarkers
  | textTypes => config.textTypes

/-- The key of an entry, by its index. -/
def entryKey (list : ListSetting) (i : Nat) : String :=
  list.key ++ "[" ++ toString i ++ "]"

end ListSetting

/-- What can be wrong with a configuration. -/
inductive Fault where
  /-- Nothing is appended to the names of components. -/
  | suffixes
  /-- A base type is not qualified. -/
  | unqualified (type : BaseType)
  /-- A mark is not named. -/
  | unnamed (marker : Marker)
  /-- An entry of a list is blank. -/
  | blankEntry (list : ListSetting) (i : Nat)
deriving DecidableEq, Repr

namespace Fault

/-- The configuration has the fault. -/
def Holds (config : Config) : Fault → Prop
  | suffixes => config.modelSuffix = "" ∧ config.generatedSuffix = ""
  | unqualified type => '.' ∉ (type.value config).toList
  | unnamed marker => Text.isBlankText (marker.value config) = true
  | blankEntry list i => ∃ value ∈ (list.values config)[i]?, Text.isBlankText value = true

/-- The setting at fault; both suffixes are, so that neither is named. -/
def key : Fault → Option String
  | suffixes => none
  | unqualified type => some type.key
  | unnamed marker => some marker.key
  | blankEntry list i => some (list.entryKey i)

/-- What is reported. -/
def message (config : Config) : Fault → String
  | suffixes => "model_suffix and generated_suffix are both empty; " ++
      "generated classes would shadow their components"
  | unqualified type => "'" ++ type.value config ++ "' must be a qualified type name"
  | unnamed _ => "must not be empty"
  | blankEntry _ _ => "must not be empty"

/-- The message under its key. -/
def report (config : Config) (fault : Fault) : List String × String :=
  (fault.key.toList, fault.message config)

/-- The order of reports: the one without a key is the first, and others have that of the bytes of
their keys. -/
def Precedes (fault next : Fault) : Prop :=
  fault.key.toList.map textBytes < next.key.toList.map textBytes

instance : DecidableRel Precedes :=
  fun fault next =>
    inferInstanceAs (Decidable (fault.key.toList.map textBytes < next.key.toList.map textBytes))

instance (config : Config) : DecidablePred (Holds config)
  | suffixes => inferInstanceAs (Decidable (_ ∧ _))
  | unqualified _ => inferInstanceAs (Decidable (_ ∉ _))
  | unnamed _ => inferInstanceAs (Decidable (_ = true))
  | blankEntry list i => inferInstanceAs (Decidable (∃ value ∈ (list.values config)[i]?, _ = true))

/-! ## Keys -/

theorem getLast?_entryKey (list : ListSetting) (i : Nat) :
    (list.entryKey i).toList.getLast? = some ']' := by
  rw [ListSetting.entryKey, String.toList_append, List.getLast?_append]
  rfl

theorem head?_entryKey (list : ListSetting) (i : Nat) :
    (list.entryKey i).toList.head? = list.key.toList.head? := by
  cases list <;> simp [ListSetting.entryKey, ListSetting.key]

/-- Only the keys of entries end with a bracket. -/
theorem baseType_key_ne_entryKey (type : BaseType) (list : ListSetting) (i : Nat) :
    type.key ≠ list.entryKey i := by
  have hlast : type.key.toList.getLast? ≠ some ']' := by cases type <;> decide
  exact fun h => hlast (h ▸ getLast?_entryKey list i)

theorem marker_key_ne_entryKey (marker : Marker) (list : ListSetting) (i : Nat) :
    marker.key ≠ list.entryKey i := by
  have hlast : marker.key.toList.getLast? ≠ some ']' := by cases marker <;> decide
  exact fun h => hlast (h ▸ getLast?_entryKey list i)

/-- The keys of the lists begin with different letters, and indices are written in one way. -/
theorem entryKey_inj {list other : ListSetting} {i j : Nat} :
    list.entryKey i = other.entryKey j ↔ list = other ∧ i = j := by
  constructor
  · intro h
    have hhead : list.key.toList.head? = other.key.toList.head? := by
      rw [← head?_entryKey list i, h, head?_entryKey]
    have hlist : list = other := by
      cases list <;> cases other <;> first | rfl | exact absurd hhead (by decide)
    subst hlist
    rw [ListSetting.entryKey, ListSetting.entryKey, String.append_left_inj,
      String.append_right_inj] at h
    exact ⟨rfl, Nat.repr_inj.mp h⟩
  · rintro ⟨rfl, rfl⟩
    rfl

/-- Different faults are reported under different keys. -/
theorem key_injective : Function.Injective key := by
  intro fault other h
  cases fault <;> cases other <;> simp only [key, Option.some.injEq, reduceCtorEq] at h
  case suffixes.suffixes => rfl
  case unqualified.unqualified type other =>
    cases type <;> cases other <;> first | rfl | exact absurd h (by decide)
  case unqualified.unnamed type marker =>
    cases type <;> cases marker <;> exact absurd h (by decide)
  case unqualified.blankEntry type list i => exact absurd h (baseType_key_ne_entryKey type list i)
  case unnamed.unqualified marker type =>
    cases marker <;> cases type <;> exact absurd h (by decide)
  case unnamed.unnamed marker other =>
    cases marker <;> cases other <;> first | rfl | exact absurd h (by decide)
  case unnamed.blankEntry marker list i => exact absurd h (marker_key_ne_entryKey marker list i)
  case blankEntry.unqualified list i type =>
    exact absurd h.symm (baseType_key_ne_entryKey type list i)
  case blankEntry.unnamed list i marker =>
    exact absurd h.symm (marker_key_ne_entryKey marker list i)
  case blankEntry.blankEntry list i other j =>
    obtain ⟨rfl, rfl⟩ := entryKey_inj.mp h
    rfl

theorem toList_key_injective : Function.Injective fun fault : Fault => fault.key.toList := by
  intro fault other h
  refine key_injective ?_
  cases hf : fault.key <;> cases ho : other.key <;> simp_all

theorem report_injective (config : Config) : Function.Injective (report config) :=
  fun _ _ h => toList_key_injective (congrArg Prod.fst h)

end Fault

/-! ## Reports -/

open Fault (report)

variable {config : Config}

/-- What is asked about a configuration, in the order of checking. -/
def questions (config : Config) : List Fault :=
  .suffixes :: [BaseType.view, .model].map .unqualified ++
    [Marker.component, .property, .reset, .resource].map .unnamed ++
    (List.range config.nullableMarkers.length).map (.blankEntry .nullableMarkers) ++
    (List.range config.textTypes.length).map (.blankEntry .textTypes)

/-- The faults of a configuration, in the order of checking. -/
def faults (config : Config) : List Fault :=
  config.questions.filter fun fault => fault.Holds config

theorem nodup_questions (config : Config) : config.questions.Nodup := by
  have hrange (list : ListSetting) (n : Nat) :
      ((List.range n).map (Fault.blankEntry list)).Nodup :=
    List.Pairwise.map _ (fun i j hij => by simpa using hij) List.nodup_range
  have hfixed : (Fault.suffixes :: [BaseType.view, .model].map Fault.unqualified ++
      [Marker.component, .property, .reset, .resource].map Fault.unnamed).Nodup := by decide
  refine List.nodup_append.mpr ⟨List.nodup_append.mpr ⟨hfixed, hrange _ _, ?_⟩, hrange _ _, ?_⟩
  · simp
  · simp

theorem nodup_faults (config : Config) : config.faults.Nodup :=
  (nodup_questions config).filter _

theorem mem_faults {fault : Fault} : fault ∈ config.faults ↔ fault.Holds config := by
  have hindex {values : List String} {i : Nat}
      (h : ∃ value ∈ values[i]?, Text.isBlankText value = true) : i < values.length := by
    obtain ⟨value, hvalue, -⟩ := h
    exact (List.getElem?_eq_some_iff.mp hvalue).1
  refine List.mem_filter.trans ⟨fun h => of_decide_eq_true h.2, fun h => ⟨?_, decide_eq_true h⟩⟩
  cases fault with
  | suffixes => simp [questions]
  | unqualified type => cases type <;> simp [questions]
  | unnamed marker => cases marker <;> simp [questions]
  | blankEntry list i => cases list <;> simpa [questions, ListSetting.values] using hindex h

/-- A report under a key. -/
def underKey (report : String × String) : List String × String :=
  ([report.1], report.2)

/-- Settings of one kind are reported if they have the fault of their kind. -/
theorem reports_filter {α : Type} {settings : List α} {fault : α → Fault} {wrong : α → Bool}
    {reported : α → List String × String}
    (hwrong : ∀ a ∈ settings, wrong a = true ↔ (fault a).Holds config)
    (hreported : ∀ a, reported a = report config (fault a)) :
    (settings.filter wrong).map reported =
      ((settings.map fault).filter fun fault => fault.Holds config).map (report config) := by
  have hfilter : settings.filter wrong =
      settings.filter ((fun fault => decide (fault.Holds config)) ∘ fault) :=
    List.filter_congr fun a ha => by
      rw [Function.comp_apply, Bool.eq_iff_iff, decide_eq_true_iff, hwrong a ha]
  rw [List.filter_map, List.map_map, ← hfilter]
  exact List.map_congr_left fun a _ => hreported a

theorem reports_unqualified (config : Config) (types : List BaseType) :
    (unqualified (types.map fun type => (type.key, type.value config))).map underKey =
      ((types.map Fault.unqualified).filter fun fault => fault.Holds config).map
        (report config) := by
  rw [unqualified, List.filter_map, List.map_map, List.map_map]
  exact reports_filter (fun type _ => decide_eq_true_iff) fun type => rfl

theorem blank_eq (values : List (String × String)) :
    blank values = (values.filter fun p => Text.isBlankText p.2).map fun p =>
      (p.1, "must not be empty") := by
  simp only [blank, Text.isEmpty_trim]

theorem reports_unnamed (config : Config) (markers : List Marker) :
    (blank (markers.map fun marker => (marker.key, marker.value config))).map underKey =
      ((markers.map Fault.unnamed).filter fun fault => fault.Holds config).map (report config) := by
  rw [blank_eq, List.filter_map, List.map_map, List.map_map]
  exact reports_filter (fun marker _ => Iff.rfl) fun marker => rfl

theorem reports_entries (config : Config) (list : ListSetting) :
    (blank (entries list.key (list.values config))).map underKey =
      (((List.range (list.values config).length).map (Fault.blankEntry list)).filter
        fun fault => fault.Holds config).map (report config) := by
  rw [blank_eq, entries, List.filter_map, List.map_map, List.map_map, List.range_eq_range',
    ← List.zipIdx_map_snd, List.map_map]
  refine reports_filter (fun entry hentry => ?_) fun entry => rfl
  have hvalue : (list.values config)[entry.2]? = some entry.1 :=
    List.mem_zipIdx_iff_getElem?.mp hentry
  simp [Fault.Holds, hvalue]

theorem mayShadow_eq_true : config.mayShadow = true ↔ Fault.suffixes.Holds config := by
  simp [mayShadow, Fault.Holds]

/-- What is reported is what is at fault, in the order of checking. -/
theorem reports_eq (config : Config) :
    (if config.mayShadow then [([], shadowingMessage)] else []) ++
        config.violations.map underKey = config.faults.map (report config) := by
  have hsuffixes : (if config.mayShadow then [([], shadowingMessage)] else []) =
      ([Fault.suffixes].filter fun fault => fault.Holds config).map (report config) := by
    have hholds : decide (Fault.suffixes.Holds config) = config.mayShadow := by
      rw [Bool.eq_iff_iff, decide_eq_true_iff, mayShadow_eq_true]
    rw [List.filter_singleton, hholds]
    cases config.mayShadow <;> rfl
  have hbase : (unqualified config.baseTypes).map underKey = _ :=
    reports_unqualified config [.view, .model]
  have hmarkers : (blank config.markers).map underKey = _ :=
    reports_unnamed config [.component, .property, .reset, .resource]
  have hnullable : (blank (entries "nullable_markers" config.nullableMarkers)).map underKey = _ :=
    reports_entries config .nullableMarkers
  have htexts : (blank (entries "text_types" config.textTypes)).map underKey = _ :=
    reports_entries config .textTypes
  rw [violations, List.map_append, List.map_append, List.map_append, hbase, hmarkers, hnullable,
    htexts, hsuffixes]
  simp only [← List.map_append, ← List.filter_append, ← List.append_assoc]
  rfl

/-! ## Outcomes -/

/-- Nothing is reported twice, and nothing is lost where the reports are put in order. -/
theorem problems_spec (config : Config) :
    config.problems.Canonical ∧
      config.problems.toPairs ~ config.faults.map (report config) := by
  have hadds := Problems.adds_foldl_addFor config.violations
  have hroot :
      (if config.mayShadow then Problems.empty.add shadowingMessage else .empty).Canonical ∧
      (if config.mayShadow then Problems.empty.add shadowingMessage else .empty).toPairs =
        if config.mayShadow then [([], shadowingMessage)] else [] := by
    cases config.mayShadow with
    | false => exact ⟨Problems.canonical_empty, rfl⟩
    | true => exact ⟨(Problems.adds_add _).canonical Problems.canonical_empty, rfl⟩
  refine ⟨hadds.canonical hroot.1, ?_⟩
  calc config.problems.toPairs
    _ = Problems.placeAll _ (config.violations.map underKey) := hadds.toPairs hroot.1
    _ ~ _ ++ config.violations.map underKey := Problems.placeAll_perm _ _
    _ = config.faults.map (report config) := by rw [hroot.2, reports_eq]

/-- The reports come in the order of their keys, whatever the order of checking is. -/
theorem exists_ordered_faults (config : Config) : ∃ ordered : List Fault,
    ordered ~ config.faults ∧ config.problems.toPairs = ordered.map (report config) ∧
      ordered.Pairwise Fault.Precedes := by
  obtain ⟨hcanonical, hperm⟩ := problems_spec config
  obtain ⟨ordered, hordered⟩ :
      config.problems.toPairs ∈ Set.range (List.map (report config)) := by
    rw [Set.range_list_map]
    intro pair hpair
    obtain ⟨fault, -, hfault⟩ := List.mem_map.mp (hperm.mem_iff.mp hpair)
    exact ⟨fault, hfault⟩
  have hfaults : ordered ~ config.faults := by
    rwa [← hordered, List.map_perm_map_iff (Fault.report_injective config)] at hperm
  refine ⟨ordered, hfaults, hordered.symm, ?_⟩
  have hascending : ordered.Pairwise fun fault next => fault.key.toList ≤ next.key.toList := by
    have := hcanonical.ascending
    rwa [← hordered, Problems.Ascending, List.pairwise_map] at this
  have hnodup : ordered.Nodup := hfaults.nodup_iff.mpr (nodup_faults config)
  refine (hascending.and hnodup).imp fun {fault next} ⟨hle, hne⟩ => ?_
  have hlt : fault.key.toList < next.key.toList :=
    lt_of_le_of_ne hle fun heq => hne (Fault.toList_key_injective heq)
  exact List.map_lt (fun _ _ => textBytes_lt_iff.mpr) hlt

/-- A configuration that keeps all rules. -/
structure Valid (config : Config) : Prop where
  baseViewType : '.' ∈ config.baseViewType.toList
  baseModelType : '.' ∈ config.baseModelType.toList
  componentMarker : Text.isBlankText config.componentMarker = false
  propertyMarker : Text.isBlankText config.propertyMarker = false
  resetMarker : Text.isBlankText config.resetMarker = false
  resourceMarker : Text.isBlankText config.resourceMarker = false
  suffixes : config.modelSuffix ≠ "" ∨ config.generatedSuffix ≠ ""
  nullableMarkers : ∀ marker ∈ config.nullableMarkers, Text.isBlankText marker = false
  textTypes : ∀ type ∈ config.textTypes, Text.isBlankText type = false

theorem forall_entries {values : List String} :
    (∀ i : Nat, ¬∃ value ∈ values[i]?, Text.isBlankText value = true) ↔
      ∀ value ∈ values, Text.isBlankText value = false := by
  simp only [not_exists, not_and, Bool.not_eq_true, List.mem_iff_getElem?, Option.mem_def]
  exact ⟨fun h value ⟨i, hi⟩ => h i value hi, fun h i value hi => h value ⟨i, hi⟩⟩

/-- The rules are kept if there is no fault. -/
theorem valid_iff : config.Valid ↔ ∀ fault : Fault, ¬fault.Holds config := by
  constructor
  · intro h fault
    cases fault with
    | suffixes => exact not_and_or.mpr h.suffixes
    | unqualified type =>
      cases type with
      | view => exact not_not.mpr h.baseViewType
      | model => exact not_not.mpr h.baseModelType
    | unnamed marker =>
      cases marker with
      | component => exact Bool.eq_false_iff.mp h.componentMarker
      | property => exact Bool.eq_false_iff.mp h.propertyMarker
      | reset => exact Bool.eq_false_iff.mp h.resetMarker
      | resource => exact Bool.eq_false_iff.mp h.resourceMarker
    | blankEntry list i =>
      cases list with
      | nullableMarkers => exact forall_entries.mpr h.nullableMarkers i
      | textTypes => exact forall_entries.mpr h.textTypes i
  · intro h
    exact {
      baseViewType := not_not.mp (h (.unqualified .view))
      baseModelType := not_not.mp (h (.unqualified .model))
      componentMarker := Bool.eq_false_iff.mpr (h (.unnamed .component))
      propertyMarker := Bool.eq_false_iff.mpr (h (.unnamed .property))
      resetMarker := Bool.eq_false_iff.mpr (h (.unnamed .reset))
      resourceMarker := Bool.eq_false_iff.mpr (h (.unnamed .resource))
      suffixes := not_and_or.mp (h .suffixes)
      nullableMarkers := forall_entries.mp fun i => h (.blankEntry .nullableMarkers i)
      textTypes := forall_entries.mp fun i => h (.blankEntry .textTypes i) }

theorem validate_eq_ok : config.validate = .ok () ↔ config.Valid := by
  have hempty : config.problems.isEmpty = true ↔ config.faults = [] := by
    obtain ⟨-, hperm⟩ := problems_spec config
    rw [Problems.isEmpty_iff, ← List.perm_nil, hperm.congr_left, List.perm_nil,
      List.map_eq_nil_iff]
  rw [validate, Problems.toExcept_eq_ok, hempty, valid_iff, List.eq_nil_iff_forall_not_mem]
  exact forall_congr' fun fault => not_congr mem_faults

theorem validate_eq_error (h : ¬config.Valid) : config.validate = .error config.problems := by
  have hok : config.problems.isEmpty ≠ true := fun hempty =>
    h (validate_eq_ok.mp (Problems.toExcept_eq_ok.mpr hempty))
  rw [validate, Problems.toExcept, if_neg hok]

/-- The outcome of validation. A configuration is accepted exactly if it keeps all rules, and for
any other one there is exactly one report for each fault that it has, be it a rule that is broken or
an entry that is blank. Each stands under its own key, the one of the suffixes at the root; it is
the first, and the others come in the order of the bytes of their keys, so that the index `10` is in
front of the index `2`. -/
theorem validate_exact (config : Config) :
    (config.validate = .ok () ↔ config.Valid) ∧
      (¬config.Valid → ∃ (p : Problems) (faults : List Fault),
        config.validate = .error p ∧ faults.Nodup ∧
          (∀ fault, fault ∈ faults ↔ fault.Holds config) ∧
          p.toPairs = faults.map (fun fault => (fault.key.toList, fault.message config)) ∧
          p.lines = faults.map (fun fault => Problems.line fault.key (fault.message config)) ∧
          faults.Pairwise Fault.Precedes) ∧
      ∀ list, (Fault.blankEntry list 10).Precedes (.blankEntry list 2) := by
  refine ⟨validate_eq_ok, fun hinvalid => ?_, fun list => by cases list <;> decide +kernel⟩
  obtain ⟨ordered, hfaults, hpairs, hordered⟩ := exists_ordered_faults config
  refine ⟨config.problems, ordered, validate_eq_error hinvalid,
    hfaults.nodup_iff.mpr (nodup_faults config), fun fault => hfaults.mem_iff.trans mem_faults,
    hpairs, ?_, hordered⟩
  refine (Problems.linesUnder_eq [] config.problems).trans ?_
  rw [hpairs, List.map_map]
  exact List.map_congr_left fun fault _ => congrArg (Problems.line · _) (Problems.dotted_toList _)

end Config

end Metamodel
