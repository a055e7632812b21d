import Metamodel.Proofs.Json.Records
import Metamodel.TypeRef.Form

/-!
# JSON form of types, read back

Classes and types are given back from their JSON form, and what is decoded as a type within a depth
fits into that depth again.

* `TypeRef.restores_toJson`: a type is given back, however deeply it is nested.
* `TypeRef.fits`: the depth that a type was decoded in is enough for its JSON form.
-/

namespace Metamodel

open Json Json.Decoder

namespace Primitive

theorem restores_toJson (p : Primitive) : ofJson.Restores p.toJson p :=
  .name (by cases p <;> rfl)

theorem fits : ofJson.Fits toJson :=
  .ofString ofJson keyword

end Primitive

namespace ClassRef

/-- The members of a class; without a package there is only the name. -/
def parts (c : ClassRef) : List (String × Option Json) :=
  [("package", textValue? c.package), ("name", some (.string c.name))]

theorem toJson_eq (c : ClassRef) : c.toJson = .object (present c.parts) := by
  simp [toJson, parts, present_cons, textMember_eq, optionalMember_some, present_nil]

theorem wellFormed_toJson (c : ClassRef) : WellFormed c.toJson := by
  rw [toJson_eq]
  refine wellFormed_present ?_
  simp only [parts, List.forall_mem_cons]
  exact ⟨forall_mem_textValue? (.string _), forall_mem_some (.string _), List.forall_mem_nil _⟩

theorem restores_toJson (c : ClassRef) : ofJson.Restores c.toJson c := by
  rw [toJson_eq]
  refine .record c.parts rfl (by decide) fun depth fields hfields => ?_
  simp only [parts, List.forall_mem_cons] at hfields
  obtain ⟨hpackage, hname, -⟩ := hfields
  simp [hpackage.text, hname.required (.string c.name)]

theorem nesting_toJson_le (c : ClassRef) : c.toJson.nesting ≤ 1 := by
  rw [toJson_eq, present_nesting_le_succ]
  simp only [parts, List.forall_mem_cons]
  exact ⟨forall_mem_textValue? (Nat.zero_le _), forall_mem_some (Nat.zero_le _),
    List.forall_mem_nil _⟩

theorem fits : ofJson.Fits toJson :=
  .flatRecord nesting_toJson_le

end ClassRef

namespace TypeRef

theorem listToJson_eq_map (ts : List TypeRef) : listToJson ts = ts.map toJson := by
  induction ts with
  | nil => rfl
  | cons t ts ih => rw [listToJson, ih, List.map_cons]

/-- The members of the object within a type with arguments. -/
def argumentParts (raw : ClassRef) (arguments : List TypeRef) : List (String × Option Json) :=
  [("raw", some raw.toJson), ("args", some (.array (listToJson arguments)))]

theorem toJson_parameterized (raw : ClassRef) (arguments : List TypeRef) :
    (parameterized raw arguments).toJson =
      .object [("parameterized", .object (present (argumentParts raw arguments)))] := rfl

theorem nesting_parameterized_le {raw : ClassRef} {arguments : List TypeRef} {depth : Nat}
    (hraw : raw.toJson.nesting ≤ depth + 1)
    (harguments : ∀ t ∈ arguments, t.toJson.nesting ≤ depth) :
    (parameterized raw arguments).toJson.nesting ≤ depth + 3 := by
  have hlist : (Json.array (listToJson arguments)).nesting ≤ depth + 1 := by
    rw [nesting_array_le_succ, listToJson_eq_map, List.forall_mem_map]
    exact harguments
  rw [toJson_parameterized, nesting_singleton_le_succ, present_nesting_le_succ]
  simp only [argumentParts, List.forall_mem_cons]
  exact ⟨forall_mem_some hraw, forall_mem_some hlist, List.forall_mem_nil _⟩

mutual

theorem wellFormed_toJson : ∀ t : TypeRef, WellFormed t.toJson
  | primitive p => .object (by simpa using .string _)
  | declared c => .object (by simpa using c.wellFormed_toJson)
  | array element => .object (by simpa using wellFormed_toJson element)
  | parameterized raw arguments => by
    have harguments := wellFormed_listToJson arguments
    have hparts : WellFormed (.object (present (argumentParts raw arguments))) :=
      wellFormed_present (by simpa [argumentParts] using ⟨raw.wellFormed_toJson, .array harguments⟩)
    rw [toJson_parameterized]
    exact .object (by simpa using hparts)
  | typeVariable name => .object (by simpa using .string _)

theorem wellFormed_listToJson : ∀ ts : List TypeRef, ∀ json ∈ listToJson ts, WellFormed json
  | [] => List.forall_mem_nil _
  | t :: ts => List.forall_mem_cons.mpr ⟨wellFormed_toJson t, wellFormed_listToJson ts⟩

end

/-! ## Decoding -/

section

variable (depth : Nat) (json : Json)

theorem ofJson_primitive :
    ofJson (depth + 1) (.object [("primitive", json)]) =
      (Primitive.ofJson depth json).map primitive := by
  rw [ofJson.eq_def]
  rfl

theorem ofJson_class :
    ofJson (depth + 1) (.object [("class", json)]) = (ClassRef.ofJson depth json).map declared := by
  rw [ofJson.eq_def]
  rfl

theorem ofJson_array :
    ofJson (depth + 1) (.object [("array", json)]) = (ofJson depth json).map array := by
  rw [ofJson.eq_def]
  rfl

theorem ofJson_typeVariable :
    ofJson (depth + 1) (.object [("type_variable", json)]) =
      (decodeString depth json).map typeVariable := by
  rw [ofJson.eq_def]
  rfl

end

/-- A type with arguments is given back if its class and its arguments are. -/
theorem ofJson_parameterized {raw : ClassRef} {arguments : List TypeRef} {depth : Nat}
    (hdepth : (Json.object (present (argumentParts raw arguments))).nesting ≤ depth)
    (harguments : ∀ d, (∀ json ∈ listToJson arguments, json.nesting ≤ d) →
      (listToJson arguments).mapM (ofJson d) = some arguments) :
    ofJson (depth + 1)
        (.object [("parameterized", .object (present (argumentParts raw arguments)))]) =
      some (parameterized raw arguments) := by
  obtain ⟨depth, rfl⟩ := exists_depth_of_nesting_le hdepth
  have hnodup : ((argumentParts raw arguments).map (·.1)).Nodup :=
    show ["raw", "args"].Nodup by decide
  obtain ⟨fields, hfields, hholds⟩ := fields?_present ["raw", "args"] hnodup hdepth
  simp only [argumentParts, List.forall_mem_cons] at hholds
  obtain ⟨hraw, hargs, -⟩ := hholds
  have hraw := (hraw (by decide)).required raw.restores_toJson
  have hargs := hargs (by decide)
  obtain ⟨depth, rfl⟩ := exists_depth_of_nesting_le (hargs.nesting_le _ rfl)
  have hitems := nesting_array_le_succ.mp (hargs.nesting_le _ rfl)
  rw [ofJson.eq_def]
  simp [hfields, hraw, hargs.required_eq, harguments depth hitems]

theorem restores_object {kind : String} {json : Json} {t : TypeRef}
    (h : ∀ depth, json.nesting ≤ depth → ofJson (depth + 1) (.object [(kind, json)]) = some t) :
    ofJson.Restores (.object [(kind, json)]) t := by
  intro depth hdepth
  obtain ⟨depth, rfl⟩ := exists_depth_of_nesting_le hdepth
  exact h depth (nesting_singleton_le_succ.mp hdepth)

mutual

/-- A type is given back. -/
theorem restores_toJson : ∀ t : TypeRef, ofJson.Restores t.toJson t
  | primitive p => restores_object fun depth hdepth => by
    rw [ofJson_primitive, p.restores_toJson depth hdepth, Option.map_some]
  | declared c => restores_object fun depth hdepth => by
    rw [ofJson_class, c.restores_toJson depth hdepth, Option.map_some]
  | array element => restores_object fun depth hdepth => by
    rw [ofJson_array, restores_toJson element depth hdepth, Option.map_some]
  | parameterized raw arguments => restores_object fun depth hdepth =>
    ofJson_parameterized hdepth (restores_listToJson arguments)
  | typeVariable name => restores_object fun depth _ => by
    rw [ofJson_typeVariable, Json.Decoder.Restores.string name depth (Nat.zero_le _),
      Option.map_some]

theorem restores_listToJson : ∀ ts : List TypeRef, ∀ depth,
    (∀ json ∈ listToJson ts, json.nesting ≤ depth) → (listToJson ts).mapM (ofJson depth) = some ts
  | [] => fun _ _ => rfl
  | t :: ts => fun depth hdepth => by
    obtain ⟨ht, hts⟩ := List.forall_mem_cons.mp hdepth
    simp [listToJson, restores_toJson t depth ht, restores_listToJson ts depth hts]

end

/-- The depth that a type was decoded in is enough for its JSON form. -/
theorem fits : ofJson.Fits toJson := by
  intro depth
  induction depth using Nat.strongRecOn with
  | _ depth ih =>
  intro json t ht
  rw [ofJson.eq_def] at ht
  split at ht
  · split at ht
    · obtain ⟨p, hp, rfl⟩ := Option.map_eq_some_iff.mp ht
      exact nesting_singleton_le_succ.mpr (Primitive.fits _ _ p hp)
    split at ht
    · obtain ⟨c, hc, rfl⟩ := Option.map_eq_some_iff.mp ht
      exact nesting_singleton_le_succ.mpr (ClassRef.fits _ _ c hc)
    split at ht
    · obtain ⟨element, helement, rfl⟩ := Option.map_eq_some_iff.mp ht
      exact nesting_singleton_le_succ.mpr (ih _ (Nat.lt_succ_self _) _ element helement)
    split at ht
    · obtain ⟨name, -, rfl⟩ := Option.map_eq_some_iff.mp ht
      exact nesting_singleton_le_succ.mpr (Nat.zero_le _)
    split at ht
    · split at ht
      · next depth =>
        obtain ⟨fields, -, ht⟩ := Option.bind_eq_some_iff.mp ht
        obtain ⟨raw, hraw, ht⟩ := Option.bind_eq_some_iff.mp ht
        obtain ⟨arguments, harguments, ht⟩ := Option.bind_eq_some_iff.mp ht
        obtain ⟨json, -, hjson⟩ := Option.bind_eq_some_iff.mp harguments
        cases ht
        have hraw := ClassRef.fits.required hraw _ rfl
        have hitems : ∀ t ∈ arguments, t.toJson.nesting ≤ depth := by
          split at hjson
          · exact Fits.forall_mem_mapM (ih depth (by omega)) hjson
          · cases hjson
        exact nesting_parameterized_le hraw hitems
      · cases ht
    · cases ht
  · cases ht

end TypeRef

end Metamodel
