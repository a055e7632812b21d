import Metamodel.Model.Form
import Metamodel.Proofs.Declaration.RoundTrip
import Metamodel.Proofs.Json.Numbers

/-!
# JSON form of models, read back

A model is given back from its JSON form if its default values are, since everything else always
is. Default values are numbers, and JSON has numbers only for finite values. Those of integers are
exact; a floating point number may be read as a neighbour of itself, so each has to be looked at.

* `DefaultValue.ReadsBack`: the number of a default value is read as itself.
* `Attribute.restores_toJson`, `Model.restores_toJson`: attributes and models are given back.
* `Attribute.nesting_toJson_le`, `Model.nesting_toJson_le`: the types of attributes decide how
  deeply a model is nested.
-/

namespace Metamodel

open Json Json.Decoder

/-! ## Default values -/

namespace DefaultValue

/-- The value is not infinite. -/
def isFinite : DefaultValue → Bool
  | float x => x.isFinite
  | double x => x.isFinite
  | _ => true

/-- A finite floating point number is read back from its JSON form as itself. -/
def ReadsBack : DefaultValue → Prop
  | float x => x.isFinite = true → binary? .single (singleLayout.ofBinary x) = some x
  | double x => x.isFinite = true → binary? .double (doubleLayout.ofBinary x) = some x
  | _ => True

instance : DecidablePred ReadsBack
  | int _ => inferInstanceAs (Decidable True)
  | float x => inferInstanceAs (Decidable (x.isFinite = true → _ = some x))
  | double x => inferInstanceAs (Decidable (x.isFinite = true → _ = some x))
  | boolean _ => inferInstanceAs (Decidable True)

/-- Not every finite number is read back: this one becomes its successor, since its digits are
rounded before they are divided by a power of ten. -/
example : ¬ (double (.ofDecimal false 31245270191439438 (-15))).ReadsBack := by
  decide +kernel

theorem binaryToJson_of_isFinite {F : BinaryFormat} {x : Binary F} (h : x.isFinite = true)
    (layout : NumberLayout) : binaryToJson layout x = .number (layout.ofBinary x) :=
  if_pos h

theorem wellFormed_toJson (v : DefaultValue) : WellFormed v.toJson := by
  have hbinary : ∀ (layout : NumberLayout) {F : BinaryFormat} (x : Binary F),
      WellFormed (binaryToJson layout x) := by
    intro layout F x
    unfold binaryToJson
    split
    · exact .number (layout.wellSpelled_ofBinary x)
    · exact .null
  cases v with
  | int n => exact .object (by simpa using .number (Numeral.wellSpelled_ofInt n.toInt))
  | float x => exact .object (by simpa using hbinary singleLayout x)
  | double x => exact .object (by simpa using hbinary doubleLayout x)
  | boolean b => exact .object (by simpa using .bool b)

theorem nesting_toJson_le (v : DefaultValue) : v.toJson.nesting ≤ 1 := by
  have hbinary : ∀ (layout : NumberLayout) {F : BinaryFormat} (x : Binary F),
      (binaryToJson layout x).nesting ≤ 0 := by
    intro layout F x
    unfold binaryToJson
    split <;> exact Nat.le_refl 0
  cases v with
  | int n => exact nesting_singleton_le_succ.mpr (Nat.le_refl 0)
  | float x => exact nesting_singleton_le_succ.mpr (hbinary singleLayout x)
  | double x => exact nesting_singleton_le_succ.mpr (hbinary doubleLayout x)
  | boolean b => exact nesting_singleton_le_succ.mpr (Nat.le_refl 0)

theorem restores_toJson {v : DefaultValue} (hfinite : v.isFinite = true) (h : v.ReadsBack) :
    ofJson.Restores v.toJson v := by
  intro depth hdepth
  cases v with
  | int n =>
    obtain ⟨depth, rfl⟩ := exists_depth_of_nesting_le hdepth
    simp [toJson, ofJson, decodeInt32, int32?_ofInt]
  | float x =>
    obtain ⟨depth, rfl⟩ := exists_depth_of_nesting_le hdepth
    simp [toJson, ofJson, binaryToJson_of_isFinite hfinite, decodeBinary, h hfinite]
  | double x =>
    obtain ⟨depth, rfl⟩ := exists_depth_of_nesting_le hdepth
    simp [toJson, ofJson, binaryToJson_of_isFinite hfinite, decodeBinary, h hfinite]
  | boolean b =>
    obtain ⟨depth, rfl⟩ := exists_depth_of_nesting_le hdepth
    simp [toJson, ofJson, decodeBool]

theorem toJson_ne_null (v : DefaultValue) : v.toJson ≠ .null := by
  cases v <;> simp [toJson]

end DefaultValue

/-! ## Attributes -/

namespace AttributeFlags

/-- The members of flags. -/
def parts (f : AttributeFlags) : List (String × Option Json) :=
  [("include_in_equality", some (.bool f.includeInEquality)), ("optional", some (.bool f.optional)),
    ("generate_getter", some (.bool f.generateGetter)),
    ("generate_setter", some (.bool f.generateSetter)),
    ("has_final_modifier", some (.bool f.hasFinalModifier)),
    ("package_private", some (.bool f.packagePrivate))]

theorem toJson_eq (f : AttributeFlags) : f.toJson = .object (present f.parts) := rfl

theorem wellFormed_toJson (f : AttributeFlags) : WellFormed f.toJson := by
  rw [toJson_eq]
  refine wellFormed_present ?_
  simp only [parts, List.forall_mem_cons]
  exact ⟨forall_mem_some (.bool _), forall_mem_some (.bool _), forall_mem_some (.bool _),
    forall_mem_some (.bool _), forall_mem_some (.bool _), forall_mem_some (.bool _),
    List.forall_mem_nil _⟩

theorem nesting_toJson (f : AttributeFlags) : f.toJson.nesting = 1 := rfl

theorem restores_toJson (f : AttributeFlags) : ofJson.Restores f.toJson f := by
  rw [toJson_eq]
  refine .record f.parts rfl (by decide) fun depth fields hfields => ?_
  simp only [parts, List.forall_mem_cons] at hfields
  obtain ⟨hequality, hoptional, hgetter, hsetter, hfinal, hpackage, -⟩ := hfields
  simp [hequality.required (.bool _), hoptional.required (.bool _), hgetter.required (.bool _),
    hsetter.required (.bool _), hfinal.required (.bool _), hpackage.required (.bool _)]

end AttributeFlags

namespace Provenance

/-- The provenance is told by its members. -/
theorem ofMembers?_members (p : Provenance) : ofMembers? p.members = some p := by
  cases p <;> rfl

/-- The members that tell the provenance are strings. -/
theorem exists_string_of_mem_members {p : Provenance} {m : String × Json} (h : m ∈ p.members) :
    ∃ s, m.2 = .string s := by
  cases p <;> (simp only [members, List.mem_cons, List.not_mem_nil, or_false] at h
               rcases h with rfl | rfl <;> exact ⟨_, rfl⟩)

end Provenance

namespace Attribute

/-- The members of an attribute. Those that tell its provenance are always there. -/
def parts (a : Attribute) : List (String × Option Json) :=
  [("name", some (.string a.name)), ("field_name", some (.string a.fieldName)),
      ("ty", some a.type.toJson), ("origin_setter", some (.string a.originSetter))] ++
    (a.provenance.members.map (fun m => (m.1, some m.2)) ++
      [("flags", some a.flags.toJson),
        ("getter_annotations", listValue? (a.getterMarks.map (·.toJson))),
        ("setter_annotations", listValue? (a.setterMarks.map (·.toJson))),
        ("default_value", a.defaultValue.map (·.toJson))])

theorem toJson_eq (a : Attribute) : a.toJson = .object (present a.parts) := by
  cases h : a.provenance <;>
    simp [toJson, members, parts, h, Provenance.members, present_cons, listMember_eq,
      optionalMember_some, present_nil]

theorem parts_nodup (a : Attribute) : (a.parts.map (·.1)).Nodup := by
  cases h : a.provenance <;> simp [parts, h, Provenance.members]

/-- The members that are no fields of an attribute are those that tell its provenance. -/
theorem filter_present_parts (a : Attribute) :
    ((present a.parts).filter fun m => !fieldNames.contains m.1) = a.provenance.members := by
  have hfields : ∀ parts : List (String × Option Json), (∀ p ∈ parts, p.1 ∈ fieldNames) →
      ((present parts).filter fun m => !fieldNames.contains m.1) = [] := by
    intro parts hparts
    rw [List.filter_eq_nil_iff]
    intro m hm
    simpa using hparts _ (mem_present.mp hm)
  rw [parts, present_append, present_append, present_map_some, List.filter_append,
    List.filter_append, hfields _ (by simp [fieldNames]), hfields _ (by simp [fieldNames])]
  cases a.provenance <;> simp [Provenance.members, fieldNames]

/-- What holds of strings, and of what the other fields of an attribute are written as, holds of
all its members. -/
theorem forall_mem_parts {P : Json → Prop} {a : Attribute} (hstring : ∀ s, P (.string s))
    (htype : P a.type.toJson) (hflags : P a.flags.toJson)
    (hmarks : ∀ marks : List Mark, P (.array (marks.map (·.toJson))))
    (hdefault : ∀ v ∈ a.defaultValue, P v.toJson) : ∀ p ∈ a.parts, ∀ json ∈ p.2, P json := by
  have hprovenance : ∀ m ∈ a.provenance.members, P m.2 := by
    intro m hm
    obtain ⟨s, hs⟩ := Provenance.exists_string_of_mem_members hm
    exact hs ▸ hstring s
  simp only [parts, List.forall_mem_append, List.forall_mem_cons, List.forall_mem_map]
  exact ⟨⟨forall_mem_some (hstring _), forall_mem_some (hstring _), forall_mem_some htype,
    forall_mem_some (hstring _), List.forall_mem_nil _⟩,
    fun m hm => forall_mem_some (hprovenance m hm),
    forall_mem_some hflags, forall_mem_listValue? (hmarks _), forall_mem_listValue? (hmarks _),
    by simpa using hdefault, List.forall_mem_nil _⟩

theorem wellFormed_toJson (a : Attribute) : WellFormed a.toJson := by
  rw [toJson_eq]
  exact wellFormed_present (forall_mem_parts .string a.type.wellFormed_toJson
    a.flags.wellFormed_toJson (fun _ => wellFormed_array_map fun mark _ => mark.wellFormed_toJson)
    fun v _ => v.wellFormed_toJson)

/-- An attribute is nested as deeply as its type, unless its marks are nested more deeply. -/
theorem nesting_toJson_le {a : Attribute} {depth : Nat} (htype : a.type.toJson.nesting ≤ depth)
    (hdepth : 4 ≤ depth) : a.toJson.nesting ≤ depth + 1 := by
  rw [toJson_eq, present_nesting_le_succ]
  refine forall_mem_parts (fun _ => Nat.zero_le _) htype ?_ (fun marks => ?_) fun v _ => ?_
  · rw [AttributeFlags.nesting_toJson]
    omega
  · have hmarks : (Json.array (marks.map (·.toJson))).nesting ≤ 3 + 1 := by
      rw [nesting_array_le_succ, List.forall_mem_map]
      exact fun mark _ => mark.nesting_toJson_le
    omega
  · have hv := v.nesting_toJson_le
    omega

/-- An attribute is given back if its default value is. -/
theorem restores_toJson {a : Attribute}
    (h : ∀ v ∈ a.defaultValue, v.isFinite = true ∧ v.ReadsBack) : ofJson.Restores a.toJson a := by
  intro depth hdepth
  rw [toJson_eq] at hdepth ⊢
  obtain ⟨depth, rfl⟩ := exists_depth_of_nesting_le hdepth
  obtain ⟨fields, hfields, hholds⟩ := fields?_present fieldNames a.parts_nodup hdepth
  simp only [parts, List.forall_mem_append, List.forall_mem_cons] at hholds
  obtain ⟨⟨hname, hfieldName, htype, horiginSetter, -⟩, -, hflags, hgetterMarks, hsetterMarks,
    hdefaultValue, -⟩ := hholds
  have hothers : a.provenance.members.all (fun m => m.2.isMeaningful depth) = true := by
    rw [List.all_eq_true]
    intro m hm
    obtain ⟨s, hs⟩ := Provenance.exists_string_of_mem_members hm
    simp [hs, isMeaningful]
  rw [ofJson, hfields, Option.bind_eq_bind, Option.bind_some, filter_present_parts, if_pos hothers]
  simp [ofFields, (hname (by decide)).required (.string _),
    (hfieldName (by decide)).required (.string _),
    (htype (by decide)).required a.type.restores_toJson,
    (horiginSetter (by decide)).required (.string _),
    (hflags (by decide)).required a.flags.restores_toJson,
    (hgetterMarks (by decide)).list fun mark _ => mark.restores_toJson,
    (hsetterMarks (by decide)).list fun mark _ => mark.restores_toJson,
    (hdefaultValue (by decide)).option
      (fun v hv => DefaultValue.restores_toJson (h v hv).1 (h v hv).2) DefaultValue.toJson_ne_null,
    Provenance.ofMembers?_members]

end Attribute

/-! ## Models -/

namespace Model

/-- The members of a model. -/
def parts (m : Model) : List (String × Option Json) :=
  [("component", some m.component.toJson), ("component_type", some m.componentType.toJson),
    ("generated", some m.generated.toJson), ("supertype", some m.supertype.toJson),
    ("layout", m.layout.map .string), ("attributes", some (.array (m.attributes.map (·.toJson)))),
    ("reset_actions", some (.array (m.resetActions.map .string)))]

theorem toJson_eq (m : Model) : m.toJson = .object (present m.parts) := by
  simp [toJson, toJsonWith, parts, present_cons, optionalMember_some, present_nil]

theorem wellFormed_toJson (m : Model) : WellFormed m.toJson := by
  rw [toJson_eq]
  refine wellFormed_present ?_
  simp only [parts, List.forall_mem_cons]
  exact ⟨forall_mem_some (.string _), forall_mem_some m.componentType.wellFormed_toJson,
    forall_mem_some m.generated.wellFormed_toJson, forall_mem_some m.supertype.wellFormed_toJson,
    by simpa using fun _ _ => .string _,
    forall_mem_some (wellFormed_array_map fun a _ => a.wellFormed_toJson),
    forall_mem_some (wellFormed_array_map fun _ _ => .string _), List.forall_mem_nil _⟩

/-- A model is nested as deeply as its supertype and the types of its attributes, unless marks are
nested more deeply. -/
theorem nesting_toJson_le {m : Model} {depth : Nat}
    (hsupertype : m.supertype.toJson.nesting ≤ depth + 2)
    (htypes : ∀ a ∈ m.attributes, a.type.toJson.nesting ≤ depth) (hdepth : 4 ≤ depth) :
    m.toJson.nesting ≤ depth + 3 := by
  have hclass : ∀ c : ClassRef, c.toJson.nesting ≤ depth + 2 := fun c => by
    have hc := c.nesting_toJson_le
    omega
  have hattributes : (Json.array (m.attributes.map (·.toJson))).nesting ≤ depth + 2 := by
    rw [nesting_array_le_succ, List.forall_mem_map]
    exact fun a ha => Attribute.nesting_toJson_le (htypes a ha) hdepth
  have hresets : (Json.array (m.resetActions.map .string)).nesting ≤ depth + 2 := by
    rw [nesting_array_le_succ, List.forall_mem_map]
    exact fun _ _ => Nat.zero_le _
  rw [toJson_eq, present_nesting_le_succ]
  simp only [parts, List.forall_mem_cons]
  exact ⟨forall_mem_some (Nat.zero_le _), forall_mem_some (hclass _), forall_mem_some (hclass _),
    forall_mem_some hsupertype, by simp [nesting],
    forall_mem_some hattributes, forall_mem_some hresets, List.forall_mem_nil _⟩

/-- No default value of the model is infinite. -/
def DefaultsFinite (m : Model) : Prop :=
  ∀ a ∈ m.attributes, ∀ v ∈ a.defaultValue, v.isFinite = true

/-- Every default value of the model is read back as itself, if it is finite. -/
def DefaultsReadBack (m : Model) : Prop :=
  ∀ a ∈ m.attributes, ∀ v ∈ a.defaultValue, v.ReadsBack

instance : DecidablePred DefaultsReadBack := fun m =>
  inferInstanceAs (Decidable (∀ a ∈ m.attributes, ∀ v ∈ a.defaultValue, v.ReadsBack))

/-- A model is given back if its default values are. -/
theorem restores_toJson {m : Model} (hfinite : m.DefaultsFinite) (h : m.DefaultsReadBack) :
    ofJson.Restores m.toJson m := by
  have hattribute : ∀ a ∈ m.attributes, Attribute.ofJson.Restores a.toJson a := fun a ha =>
    Attribute.restores_toJson fun v hv => ⟨hfinite a ha v hv, h a ha v hv⟩
  rw [toJson_eq]
  refine .record m.parts rfl (by decide) fun depth fields hfields => ?_
  simp only [parts, List.forall_mem_cons] at hfields
  obtain ⟨hcomponent, hcomponentType, hgenerated, hsupertype, hlayout, hattributes, hresets, -⟩ :=
    hfields
  simp [hcomponent.required m.component.restores_toJson,
    hcomponentType.required m.componentType.restores_toJson,
    hgenerated.required m.generated.restores_toJson,
    hsupertype.required m.supertype.restores_toJson,
    hlayout.option (fun s _ => .string s) (by simp),
    hattributes.required (.list hattribute),
    hresets.required (.list fun s _ => .string s)]

end Model

end Metamodel
