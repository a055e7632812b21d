import Metamodel.Declaration.Form
import Metamodel.Proofs.TypeRef.Form

/-!
# Candidates, read back from their text

Each part of a declaration is written without its empty fields. What is left out is what the
decoder puts in its place, so every part is given back, as long as the text is not nested too
deeply.

* `Mark.restores_toJson`, `Declaration.restores_toJson`, `Candidates.restores_toJson`: the parts of
  candidates and the candidates themselves are given back.
* `Declaration.fits`: the depth that a declaration was decoded in is enough for its record.
* `Candidates.ofText?_eq_self_iff`: which candidates are given back from their text.
-/

namespace Metamodel

open Json Json.Decoder

/-! ## Marks -/

namespace MarkMember

/-- The members of a member of a mark. -/
def parts (m : MarkMember) : List (String × Option Json) :=
  [("name", some (.string m.name)), ("value", some (.string m.value))]

theorem toJson_eq (m : MarkMember) : m.toJson = .object (present m.parts) := rfl

theorem wellFormed_toJson (m : MarkMember) : WellFormed m.toJson := by
  rw [toJson_eq]
  refine wellFormed_present ?_
  simp only [parts, List.forall_mem_cons]
  exact ⟨forall_mem_some (.string _), forall_mem_some (.string _), List.forall_mem_nil _⟩

theorem restores_toJson (m : MarkMember) : ofJson.Restores m.toJson m := by
  refine .record m.parts rfl (by decide) fun depth fields hfields => ?_
  simp only [parts, List.forall_mem_cons] at hfields
  obtain ⟨hname, hvalue, -⟩ := hfields
  simp [hname.required (.string m.name), hvalue.required (.string m.value)]

theorem nesting_toJson (m : MarkMember) : m.toJson.nesting = 1 := rfl

theorem fits : ofJson.Fits toJson :=
  .flatRecord fun m => Nat.le_of_eq m.nesting_toJson

end MarkMember

namespace Mark

/-- The members of a mark. -/
def parts (mark : Mark) : List (String × Option Json) :=
  [("ty", some mark.type.toJson), ("members", listValue? (mark.members.map (·.toJson)))]

theorem toJson_eq (mark : Mark) : mark.toJson = .object (present mark.parts) := by
  simp [toJson, parts, present_cons, listMember_eq, optionalMember_some, present_nil]

theorem wellFormed_toJson (mark : Mark) : WellFormed mark.toJson := by
  rw [toJson_eq]
  refine wellFormed_present ?_
  simp only [parts, List.forall_mem_cons]
  exact ⟨forall_mem_some mark.type.wellFormed_toJson,
    forall_mem_listValue? (wellFormed_array_map fun m _ => m.wellFormed_toJson),
    List.forall_mem_nil _⟩

theorem restores_toJson (mark : Mark) : ofJson.Restores mark.toJson mark := by
  rw [toJson_eq]
  refine .record mark.parts rfl (by decide) fun depth fields hfields => ?_
  simp only [parts, List.forall_mem_cons] at hfields
  obtain ⟨htype, hmembers, -⟩ := hfields
  simp [htype.required mark.type.restores_toJson,
    hmembers.list fun m _ => m.restores_toJson]

theorem fits : ofJson.Fits toJson := by
  refine .record toJson_eq fun depth fields mark hmark => ?_
  obtain ⟨type, htype, hmark⟩ := Option.bind_eq_some_iff.mp hmark
  obtain ⟨members, hmembers, hmark⟩ := Option.bind_eq_some_iff.mp hmark
  cases hmark
  simp only [parts, List.forall_mem_cons]
  exact ⟨ClassRef.fits.required htype, MarkMember.fits.listField hmembers, List.forall_mem_nil _⟩

theorem nesting_toJson_le (mark : Mark) : mark.toJson.nesting ≤ 3 := by
  have hmembers : (Json.array (mark.members.map (·.toJson))).nesting ≤ 1 + 1 := by
    rw [nesting_array_le_succ, List.forall_mem_map]
    exact fun m _ => Nat.le_of_eq m.nesting_toJson
  rw [toJson_eq, present_nesting_le_succ]
  simp only [parts, List.forall_mem_cons]
  exact ⟨forall_mem_some (Nat.le_succ_of_le mark.type.nesting_toJson_le),
    forall_mem_listValue? hmembers, List.forall_mem_nil _⟩

end Mark

/-! ## Parts of a declaration -/

theorem DeclId.restores_toJson (id : DeclId) : ofJson.Restores id.toJson id :=
  fun _ _ => rfl

theorem DeclId.fits : ofJson.Fits toJson :=
  .ofString ofJson text

theorem DeclKind.restores_name (k : DeclKind) : ofJson.Restores (.string k.name) k :=
  .name (by cases k <;> rfl)

theorem Modifier.restores_name (m : Modifier) : ofJson.Restores (.string m.name) m :=
  .name (by cases m <;> rfl)

theorem Nesting.restores_name (n : Nesting) : ofJson.Restores (.string n.name) n :=
  .name (by cases n <;> rfl)

namespace Parameter

/-- The members of a parameter. -/
def parts (p : Parameter) : List (String × Option Json) :=
  [("name", some (.string p.name)), ("ty", some p.type.toJson),
    ("annotations", listValue? (p.marks.map (·.toJson)))]

theorem toJson_eq (p : Parameter) : p.toJson = .object (present p.parts) := by
  simp [toJson, parts, present_cons, listMember_eq, optionalMember_some, present_nil]

theorem wellFormed_toJson (p : Parameter) : WellFormed p.toJson := by
  rw [toJson_eq]
  refine wellFormed_present ?_
  simp only [parts, List.forall_mem_cons]
  exact ⟨forall_mem_some (.string _), forall_mem_some p.type.wellFormed_toJson,
    forall_mem_listValue? (wellFormed_array_map fun mark _ => mark.wellFormed_toJson),
    List.forall_mem_nil _⟩

theorem restores_toJson (p : Parameter) : ofJson.Restores p.toJson p := by
  rw [toJson_eq]
  refine .record p.parts rfl (by decide) fun depth fields hfields => ?_
  simp only [parts, List.forall_mem_cons] at hfields
  obtain ⟨hname, htype, hmarks, -⟩ := hfields
  simp [hname.required (.string p.name), htype.required p.type.restores_toJson,
    hmarks.list fun mark _ => mark.restores_toJson]

theorem fits : ofJson.Fits toJson := by
  refine .record toJson_eq fun depth fields p hp => ?_
  obtain ⟨name, -, hp⟩ := Option.bind_eq_some_iff.mp hp
  obtain ⟨type, htype, hp⟩ := Option.bind_eq_some_iff.mp hp
  obtain ⟨marks, hmarks, hp⟩ := Option.bind_eq_some_iff.mp hp
  cases hp
  simp only [parts, List.forall_mem_cons]
  exact ⟨forall_mem_some (Nat.zero_le _), TypeRef.fits.required htype, Mark.fits.listField hmarks,
    List.forall_mem_nil _⟩

end Parameter

/-! ## Declarations -/

namespace Declaration

/-- The members of a declaration. -/
def parts (d : Declaration) : List (String × Option Json) :=
  [("id", some d.id.toJson), ("name", some (.string d.name)), ("kind", some (.string d.kind.name)),
    ("package", textValue? d.package),
    ("modifiers", listValue? (d.modifiers.map fun m => .string m.name)),
    ("nesting", some (.string d.nesting.name)),
    ("enclosing", d.enclosing.map (·.toJson)),
    ("supertypes", listValue? (d.supertypes.map .string)),
    ("parameters", listValue? (d.parameters.map (·.toJson))),
    ("annotations", listValue? (d.marks.map (·.toJson)))]

theorem toJson_eq (d : Declaration) : d.toJson = .object (present d.parts) := by
  simp [toJson, parts, present_cons, textMember_eq, listMember_eq, optionalMember_some, present_nil]

theorem wellFormed_toJson (d : Declaration) : WellFormed d.toJson := by
  rw [toJson_eq]
  refine wellFormed_present ?_
  simp only [parts, List.forall_mem_cons]
  exact ⟨forall_mem_some (.string _), forall_mem_some (.string _), forall_mem_some (.string _),
    forall_mem_textValue? (.string _),
    forall_mem_listValue? (wellFormed_array_map fun _ _ => .string _),
    forall_mem_some (.string _), by simpa using fun _ _ => .string _,
    forall_mem_listValue? (wellFormed_array_map fun _ _ => .string _),
    forall_mem_listValue? (wellFormed_array_map fun p _ => p.wellFormed_toJson),
    forall_mem_listValue? (wellFormed_array_map fun mark _ => mark.wellFormed_toJson),
    List.forall_mem_nil _⟩

/-- A declaration is given back: what is left out in its record is what is put in its place. -/
theorem restores_toJson (d : Declaration) : ofJson.Restores d.toJson d := by
  rw [toJson_eq]
  refine .record d.parts rfl (by decide) fun depth fields hfields => ?_
  simp only [parts, List.forall_mem_cons] at hfields
  obtain ⟨hid, hname, hkind, hpackage, hmodifiers, hnesting, henclosing, hsupertypes, hparameters,
    hmarks, -⟩ := hfields
  simp [hid.required d.id.restores_toJson, hname.required (.string d.name),
    hkind.required d.kind.restores_name, hpackage.text,
    hmodifiers.list fun m _ => m.restores_name,
    hnesting.withDefault (by simpa using d.nesting.restores_name) (by simp),
    henclosing.option (fun id _ => id.restores_toJson) (by simp [DeclId.toJson]),
    hsupertypes.list fun s _ => .string s,
    hparameters.list fun p _ => p.restores_toJson,
    hmarks.list fun mark _ => mark.restores_toJson]

theorem fits : ofJson.Fits toJson := by
  refine .record toJson_eq fun depth fields d hd => ?_
  obtain ⟨id, hid, hd⟩ := Option.bind_eq_some_iff.mp hd
  obtain ⟨name, -, hd⟩ := Option.bind_eq_some_iff.mp hd
  obtain ⟨kind, -, hd⟩ := Option.bind_eq_some_iff.mp hd
  obtain ⟨package, -, hd⟩ := Option.bind_eq_some_iff.mp hd
  obtain ⟨modifiers, hmodifiers, hd⟩ := Option.bind_eq_some_iff.mp hd
  obtain ⟨nesting, -, hd⟩ := Option.bind_eq_some_iff.mp hd
  obtain ⟨enclosing, henclosing, hd⟩ := Option.bind_eq_some_iff.mp hd
  obtain ⟨supertypes, hsupertypes, hd⟩ := Option.bind_eq_some_iff.mp hd
  obtain ⟨parameters, hparameters, hd⟩ := Option.bind_eq_some_iff.mp hd
  obtain ⟨marks, hmarks, hd⟩ := Option.bind_eq_some_iff.mp hd
  cases hd
  simp only [parts, List.forall_mem_cons]
  exact ⟨DeclId.fits.required hid, forall_mem_some (Nat.zero_le _), forall_mem_some (Nat.zero_le _),
    forall_mem_textValue? (Nat.zero_le _),
    (Fits.ofString Modifier.ofJson Modifier.name).listField hmodifiers,
    forall_mem_some (Nat.zero_le _),
    DeclId.fits.optionField henclosing,
    (Fits.ofString decodeString fun s => s).listField hsupertypes,
    Parameter.fits.listField hparameters, Mark.fits.listField hmarks, List.forall_mem_nil _⟩

end Declaration

/-! ## Candidates -/

namespace Candidates

/-- The members of the candidates of a round. -/
def parts (c : Candidates) : List (String × Option Json) :=
  [("components", some (.array (c.components.map (·.toJson)))),
    ("properties", some (.array (c.properties.map (·.toJson)))),
    ("resets", some (.array (c.resets.map (·.toJson))))]

theorem toJson_eq (c : Candidates) : c.toJson = .object (present c.parts) := rfl

theorem wellFormed_toJson (c : Candidates) : WellFormed c.toJson := by
  have hlist : ∀ ds : List Declaration, WellFormed (.array (ds.map (·.toJson))) :=
    fun ds => wellFormed_array_map fun d _ => d.wellFormed_toJson
  rw [toJson_eq]
  refine wellFormed_present ?_
  simp only [parts, List.forall_mem_cons]
  exact ⟨forall_mem_some (hlist _), forall_mem_some (hlist _), forall_mem_some (hlist _),
    List.forall_mem_nil _⟩

theorem restores_toJson (c : Candidates) : ofJson.Restores c.toJson c := by
  have hlist : ∀ ds : List Declaration,
      (decodeList Declaration.ofJson).Restores (.array (ds.map (·.toJson))) ds :=
    fun ds => .list fun d _ => d.restores_toJson
  refine .record c.parts rfl (by decide) fun depth fields hfields => ?_
  simp only [parts, List.forall_mem_cons] at hfields
  obtain ⟨hcomponents, hproperties, hresets, -⟩ := hfields
  simp [hcomponents.withDefault (by simpa using hlist c.components) (by simp),
    hproperties.withDefault (by simpa using hlist c.properties) (by simp),
    hresets.withDefault (by simpa using hlist c.resets) (by simp)]

/-- The lists of candidates are written even if they are empty, so two levels are always used. -/
theorem nesting_toJson_le {depth : Nat} {json : Json} {c : Candidates}
    (h : ofJson (depth + 2) json = some c) : c.toJson.nesting ≤ depth + 2 := by
  have hlist : ∀ (fields : Fields) (name : String) (ds : List Declaration),
      fields.withDefault name [] (decodeList Declaration.ofJson (depth + 1)) = some ds →
        ∀ json ∈ some (Json.array (ds.map (·.toJson))), json.nesting ≤ depth + 1 := by
    intro fields name ds hds
    refine forall_mem_some ?_
    unfold Fields.withDefault at hds
    split at hds
    · exact Declaration.fits.list _ _ ds hds
    · cases hds
      simp [nesting_array_le_succ]
  obtain ⟨fields, -, hc⟩ := Option.bind_eq_some_iff.mp h
  obtain ⟨components, hcomponents, hc⟩ := Option.bind_eq_some_iff.mp hc
  obtain ⟨properties, hproperties, hc⟩ := Option.bind_eq_some_iff.mp hc
  obtain ⟨resets, hresets, hc⟩ := Option.bind_eq_some_iff.mp hc
  cases hc
  rw [toJson_eq, present_nesting_le_succ]
  simp only [parts, List.forall_mem_cons]
  exact ⟨hlist _ _ _ hcomponents, hlist _ _ _ hproperties, hlist _ _ _ hresets,
    List.forall_mem_nil _⟩

/-- The types of parameters are nested less deeply than the candidates, by five levels. -/
theorem nesting_type_le {c : Candidates} {depth : Nat}
    (h : c.toJson.nesting ≤ depth + 5) {p : Declaration} (hp : p ∈ c.properties)
    {parameter : Parameter} (hparameter : parameter ∈ p.parameters) :
    parameter.type.toJson.nesting ≤ depth := by
  rw [toJson_eq] at h
  have hproperties : (Json.array (c.properties.map (·.toJson))).nesting ≤ depth + 4 :=
    nesting_le_of_mem h (List.mem_cons_of_mem _ List.mem_cons_self)
  have hdeclaration : p.toJson.nesting ≤ depth + 3 :=
    nesting_array_le_succ.mp hproperties _ (List.mem_map_of_mem hp)
  rw [Declaration.toJson_eq] at hdeclaration
  have hrecord : parameter.toJson.nesting ≤ depth + 1 :=
    nesting_le_of_mem_list hdeclaration (show ("parameters", _) ∈ p.parts by
      simp [Declaration.parts]) hparameter
  rw [Parameter.toJson_eq] at hrecord
  exact nesting_le_of_mem hrecord (List.mem_cons_of_mem _ List.mem_cons_self)

/-- What is decoded from a text is within the limit of nesting. -/
theorem nesting_le_of_ofText? {text : String} {c : Candidates} (h : ofText? text = some c) :
    c.toJson.nesting ≤ nestingLimit := by
  obtain ⟨json, -, hjson⟩ := Option.bind_eq_some_iff.mp h
  exact nesting_toJson_le hjson

/-- A text that is read as the record of candidates is decoded as the candidates just if the record
is within the limit of nesting. -/
theorem decodeText_eq_self_iff {c : Candidates} {text : String} (h : read text = some c.toJson) :
    ofText? text = some c ↔ c.toJson.nesting ≤ nestingLimit := by
  rw [ofText?, decodeText, h, Option.bind_some]
  exact ⟨nesting_toJson_le, c.restores_toJson nestingLimit⟩

theorem ofText?_compact {c : Candidates} (h : c.toJson.nesting ≤ nestingLimit) :
    ofText? c.toJson.compact = some c :=
  (decodeText_eq_self_iff (read_compact c.wellFormed_toJson)).mpr h

/-- Candidates are given back from both layouts of their text, unless the text is nested too
deeply. -/
theorem ofText?_eq_self_iff (c : Candidates) :
    (ofText? c.toJson.compact = some c ↔ c.toJson.nesting ≤ nestingLimit) ∧
      (ofText? c.toJson.pretty = some c ↔ c.toJson.nesting ≤ nestingLimit) :=
  ⟨decodeText_eq_self_iff (read_compact c.wellFormed_toJson),
    decodeText_eq_self_iff (read_pretty c.wellFormed_toJson)⟩

end Candidates

end Metamodel
