import Metamodel.Json.Decoder
import Metamodel.Proofs.Json.Reading

/-!
# Records that are written

A record is an object with a member for each of its fields, and some members are left out if they
would hold the default. What a decoder makes of such an object depends on the fields alone.

* `Decoder.Restores`: a decoder gives a value back, at any depth that leaves room for its JSON form.
* `Decoder.Fits`: what is decoded within a depth can be written within it.
* `present`: the members of a record, of which some are left out.
* `Fields.Holds`: what a decoder finds in such a record under the name of a field.
* `Restores.record`, `Fits.record`: the two properties for records, field by field.
-/

namespace Metamodel.Json

/-! ## Nesting -/

theorem nestingOfItems_le_iff {items : List Json} {depth : Nat} :
    nestingOfItems items ≤ depth ↔ ∀ item ∈ items, item.nesting ≤ depth := by
  induction items with
  | nil => simp [nestingOfItems]
  | cons item rest ih => rw [nestingOfItems, Nat.max_le, ih, List.forall_mem_cons]

theorem nestingOfMembers_le_iff {members : List (String × Json)} {depth : Nat} :
    nestingOfMembers members ≤ depth ↔ ∀ m ∈ members, m.2.nesting ≤ depth := by
  induction members with
  | nil => simp [nestingOfMembers]
  | cons m rest ih => rw [nestingOfMembers, Nat.max_le, ih, List.forall_mem_cons]

/-- An array needs one level more than its items. -/
theorem nesting_array_le_succ {items : List Json} {depth : Nat} :
    (array items).nesting ≤ depth + 1 ↔ ∀ item ∈ items, item.nesting ≤ depth := by
  rw [nesting, Nat.add_le_add_iff_right, nestingOfItems_le_iff]

/-- An object needs one level more than the values of its members. -/
theorem nesting_object_le_succ {members : List (String × Json)} {depth : Nat} :
    (object members).nesting ≤ depth + 1 ↔ ∀ m ∈ members, m.2.nesting ≤ depth := by
  rw [nesting, Nat.add_le_add_iff_right, nestingOfMembers_le_iff]

theorem nesting_singleton_le_succ {name : String} {json : Json} {depth : Nat} :
    (object [(name, json)]).nesting ≤ depth + 1 ↔ json.nesting ≤ depth := by
  simp [nesting_object_le_succ]

theorem exists_depth_of_nesting_le {n depth : Nat} (h : n + 1 ≤ depth) : ∃ d, depth = d + 1 :=
  ⟨depth - 1, by omega⟩

/-! ## Decoders -/

namespace Decoder

variable {α : Type}

/-- The decoder gives the value back from its JSON form, at any depth that leaves room for it. -/
def Restores (decode : Decoder α) (json : Json) (x : α) : Prop :=
  ∀ depth, json.nesting ≤ depth → decode depth json = some x

/-- The JSON form of a value needs no more depth than there was when the value was decoded. -/
def Fits (decode : Decoder α) (encode : α → Json) : Prop :=
  ∀ depth json x, decode depth json = some x → (encode x).nesting ≤ depth

variable {decode : Decoder α} {encode : α → Json}

namespace Restores

theorem string (s : String) : Restores decodeString (.string s) s :=
  fun _ _ => rfl

theorem bool (b : Bool) : Restores decodeBool (.bool b) b :=
  fun _ _ => rfl

/-- A name is given back if it leads to the value. -/
theorem name {named : String → Option α} {s : String} {x : α} (h : named s = some x) :
    Restores (decodeName named) (.string s) x :=
  fun _ _ => h

/-- A list is given back if its items are. -/
theorem list {xs : List α} (h : ∀ x ∈ xs, decode.Restores (encode x) x) :
    Restores (decodeList decode) (.array (xs.map encode)) xs := by
  intro depth hdepth
  obtain ⟨depth, rfl⟩ := exists_depth_of_nesting_le hdepth
  rw [nesting_array_le_succ, List.forall_mem_map] at hdepth
  rw [decodeList, List.mapM_map]
  induction xs with
  | nil => rfl
  | cons x rest ih =>
    obtain ⟨hx, hrest⟩ := List.forall_mem_cons.mp h
    obtain ⟨hdx, hdrest⟩ := List.forall_mem_cons.mp hdepth
    simp [hx depth hdx, ih hrest hdrest]

/-- A value that is there is given back if its JSON form is not `null`. -/
theorem option {json : Json} {x : α} (h : decode.Restores json x) (hne : json ≠ .null) :
    Restores (decodeOption decode) json (some x) := by
  intro depth hdepth
  rw [decodeOption]
  · rw [h depth hdepth]
    rfl
  · exact hne

end Restores

namespace Fits

/-- A string opens neither an array nor an object. -/
theorem ofString (decode : Decoder α) (text : α → String) : decode.Fits fun x => .string (text x) :=
  fun depth _ _ _ => Nat.zero_le depth

/-- What holds of every decoded item holds of the items of a decoded list. -/
theorem forall_mem_mapM {f : Json → Option α} {P : α → Prop}
    (h : ∀ json x, f json = some x → P x) {items : List Json} {xs : List α}
    (hxs : items.mapM f = some xs) : ∀ x ∈ xs, P x := by
  induction items generalizing xs with
  | nil =>
    cases hxs
    exact List.forall_mem_nil _
  | cons item items ih =>
    rw [List.mapM_cons] at hxs
    obtain ⟨x, hx, hxs⟩ := Option.bind_eq_some_iff.mp hxs
    obtain ⟨rest, hrest, hxs⟩ := Option.bind_eq_some_iff.mp hxs
    cases hxs
    exact List.forall_mem_cons.mpr ⟨h item x hx, ih hrest⟩

theorem list (h : decode.Fits encode) :
    (decodeList decode).Fits fun xs => .array (xs.map encode) := by
  intro depth json xs hxs
  cases json with
  | array items =>
    cases depth with
    | zero => cases hxs
    | succ depth =>
      rw [nesting_array_le_succ, List.forall_mem_map]
      exact forall_mem_mapM (h depth) hxs
  | _ => cases depth <;> cases hxs

/-- A value that is not `null` fits if it fits without the choice of `null`. -/
theorem option (h : decode.Fits encode) {depth : Nat} {json : Json} {x : Option α}
    (hx : decodeOption decode depth json = some x) : ∀ y ∈ x, (encode y).nesting ≤ depth := by
  rintro y rfl
  cases json with
  | null => cases hx
  | _ =>
    obtain ⟨y, hy, hxy⟩ := Option.map_eq_some_iff.mp hx
    cases hxy
    exact h depth _ y hy

end Fits

end Decoder

/-! ## Members -/

/-- The members of a record, of which those without a value are left out. -/
def present (parts : List (String × Option Json)) : List (String × Json) :=
  parts.filterMap fun p => p.2.map fun json => (p.1, json)

/-- The value of a text that is left out if it is empty. -/
def textValue? (s : String) : Option Json :=
  if s.isEmpty then none else some (.string s)

/-- The value of a list that is left out if it is empty. -/
def listValue? (items : List Json) : Option Json :=
  if items.isEmpty then none else some (.array items)

section Members

variable {parts : List (String × Option Json)}

theorem present_nil : present [] = [] := rfl

theorem present_cons (name : String) (json : Option Json) :
    present ((name, json) :: parts) = optionalMember name json ++ present parts := by
  cases json <;> rfl

theorem present_append (parts more : List (String × Option Json)) :
    present (parts ++ more) = present parts ++ present more :=
  List.filterMap_append

theorem optionalMember_some (name : String) (json : Json) :
    optionalMember name (some json) = [(name, json)] := rfl

/-- Members that are all there. -/
theorem present_map_some (members : List (String × Json)) :
    present (members.map fun m => (m.1, some m.2)) = members := by
  induction members with
  | nil => rfl
  | cons m members ih =>
    rw [List.map_cons, present_cons, ih, optionalMember_some, List.singleton_append]

theorem textMember_eq (name s : String) :
    textMember name s = optionalMember name (textValue? s) := by
  unfold textMember textValue?
  split <;> rfl

theorem listMember_eq (name : String) (items : List Json) :
    listMember name items = optionalMember name (listValue? items) := by
  unfold listMember listValue?
  split <;> rfl

theorem mem_present {m : String × Json} : m ∈ present parts ↔ (m.1, some m.2) ∈ parts := by
  unfold present
  rw [List.mem_filterMap]
  constructor
  · rintro ⟨⟨name, json⟩, hp, hm⟩
    obtain ⟨json, rfl, rfl⟩ := Option.map_eq_some_iff.mp hm
    exact hp
  · exact fun h => ⟨_, h, rfl⟩

/-- What holds of all members holds of all values that are written. -/
theorem forall_mem_present (P : Json → Prop) :
    (∀ m ∈ present parts, P m.2) ↔ ∀ p ∈ parts, ∀ json ∈ p.2, P json := by
  constructor
  · rintro h ⟨name, _⟩ hp json rfl
    exact h (name, json) (mem_present.mpr hp)
  · exact fun h m hm => h _ (mem_present.mp hm) m.2 rfl

theorem forall_mem_some {P : Json → Prop} {json : Json} (h : P json) :
    ∀ j ∈ some json, P j := by
  rintro _ ⟨⟩
  exact h

theorem forall_mem_textValue? {P : Json → Prop} {s : String} (h : P (.string s)) :
    ∀ json ∈ textValue? s, P json := by
  unfold textValue?
  split
  · simp
  · exact forall_mem_some h

theorem forall_mem_listValue? {P : Json → Prop} {items : List Json} (h : P (.array items)) :
    ∀ json ∈ listValue? items, P json := by
  unfold listValue?
  split
  · simp
  · exact forall_mem_some h

/-- The members that are there stand in the order of the fields. -/
theorem map_fst_present_sublist (parts : List (String × Option Json)) :
    ((present parts).map (·.1)).Sublist (parts.map (·.1)) := by
  induction parts with
  | nil => exact .refl _
  | cons p parts ih =>
    obtain ⟨name, json⟩ := p
    cases json with
    | none => exact ih.cons name
    | some json => exact ih.cons_cons name

theorem lookup_present_of_not_mem {name : String} (h : name ∉ parts.map (·.1)) :
    (present parts).lookup name = none := by
  rw [List.lookup_eq_none_iff]
  intro m hm
  have hmem : m.1 ∈ parts.map (·.1) := List.mem_map_of_mem (mem_present.mp hm)
  rw [bne_iff_ne]
  exact fun heq => h (heq ▸ hmem)

/-- A member has the value that was written for it, and is missing if none was. -/
theorem lookup_present (hnodup : (parts.map (·.1)).Nodup) {name : String} {value : Option Json}
    (h : (name, value) ∈ parts) : (present parts).lookup name = value := by
  induction parts with
  | nil => cases h
  | cons p parts ih =>
    obtain ⟨first, json⟩ := p
    rw [List.map_cons, List.nodup_cons] at hnodup
    obtain ⟨hfirst, hnodup⟩ := hnodup
    rcases List.mem_cons.mp h with heq | h
    · cases heq
      cases value with
      | some json => exact List.lookup_cons_self
      | none =>
        show (present parts).lookup name = none
        exact lookup_present_of_not_mem hfirst
    · have hname : name ∈ parts.map (·.1) := List.mem_map_of_mem h
      have hne : (name == first) = false := by
        rw [beq_eq_false_iff_ne]
        rintro rfl
        exact hfirst hname
      rw [present_cons, List.lookup_append, ih hnodup h]
      cases json with
      | none => rfl
      | some json => simp [optionalMember_some, List.lookup_cons, hne]

theorem present_nesting_le_succ {depth : Nat} :
    (object (present parts)).nesting ≤ depth + 1 ↔
      ∀ p ∈ parts, ∀ json ∈ p.2, json.nesting ≤ depth := by
  rw [nesting_object_le_succ]
  exact forall_mem_present fun json => json.nesting ≤ depth

theorem nesting_le_of_mem {name : String} {json : Json} {depth : Nat}
    (h : (object (present parts)).nesting ≤ depth + 1) (hp : (name, some json) ∈ parts) :
    json.nesting ≤ depth :=
  present_nesting_le_succ.mp h _ hp json rfl

theorem nesting_le_of_mem_list {name : String} {α : Type} {encode : α → Json} {xs : List α} {x : α}
    {depth : Nat} (h : (object (present parts)).nesting ≤ depth + 2)
    (hp : (name, listValue? (xs.map encode)) ∈ parts) (hx : x ∈ xs) :
    (encode x).nesting ≤ depth := by
  have hlist : listValue? (xs.map encode) = some (.array (xs.map encode)) := by
    cases xs with
    | nil => cases hx
    | cons y ys => rfl
  rw [hlist] at hp
  exact nesting_array_le_succ.mp (nesting_le_of_mem h hp) _ (List.mem_map_of_mem hx)

theorem wellFormed_array_map {α : Type} {encode : α → Json} {xs : List α}
    (h : ∀ x ∈ xs, WellFormed (encode x)) : WellFormed (.array (xs.map encode)) :=
  .array (List.forall_mem_map.mpr h)

theorem wellFormed_present (h : ∀ p ∈ parts, ∀ json ∈ p.2, WellFormed json) :
    WellFormed (object (present parts)) :=
  .object ((forall_mem_present WellFormed).mpr h)

end Members

/-! ## Fields -/

namespace Fields

/-- The record has the value under the name, or nothing if there is none, and the value fits into
the depth. -/
structure Holds (fields : Fields) (depth : Nat) (name : String) (value : Option Json) : Prop where
  lookup_eq : fields.lookup name = value
  nesting_le : ∀ json ∈ value, json.nesting ≤ depth

variable {fields : Fields} {depth : Nat} {name : String} {α : Type} {decode : Decoder α}
  {encode : α → Json}

namespace Holds

theorem required_eq {json : Json} (h : fields.Holds depth name (some json))
    (decode : Json → Option α) : fields.required name decode = decode json := by
  rw [Fields.required, h.lookup_eq, Option.bind_some]

/-- A field that is there is given back if its value is. -/
theorem required {json : Json} {x : α} (h : fields.Holds depth name (some json))
    (hx : decode.Restores json x) : fields.required name (decode depth) = some x := by
  rw [h.required_eq]
  exact hx depth (h.nesting_le json rfl)

/-- A field that may be left out is given back if its value is, and if it is left out only where it
holds the default. -/
theorem withDefault {value : Option Json} {x default : α} (h : fields.Holds depth name value)
    (hsome : ∀ json ∈ value, decode.Restores json x) (hnone : value = none → x = default) :
    fields.withDefault name default (decode depth) = some x := by
  rw [Fields.withDefault, h.lookup_eq]
  cases value with
  | some json => exact hsome json rfl depth (h.nesting_le json rfl)
  | none => rw [hnone rfl]

theorem text {s : String} (h : fields.Holds depth name (textValue? s)) :
    fields.withDefault name "" (decodeString depth) = some s := by
  unfold textValue? at h
  split at h
  · next hempty => exact h.withDefault (by simp) fun _ => String.isEmpty_iff.mp hempty
  · exact h.withDefault (by simpa using .string s) (by simp)

theorem list {xs : List α} (h : fields.Holds depth name (listValue? (xs.map encode)))
    (hx : ∀ x ∈ xs, decode.Restores (encode x) x) :
    fields.withDefault name [] (decodeList decode depth) = some xs := by
  unfold listValue? at h
  split at h
  · next hempty => exact h.withDefault (by simp) (by simpa using hempty)
  · exact h.withDefault (by simpa using .list hx) (by simp)

theorem option {x : Option α} (h : fields.Holds depth name (x.map encode))
    (hx : ∀ y ∈ x, decode.Restores (encode y) y) (hne : ∀ y, encode y ≠ .null) :
    fields.withDefault name none (decodeOption decode depth) = some x := by
  cases x with
  | none => exact h.withDefault (by simp) fun _ => rfl
  | some y => exact h.withDefault (by simpa using (hx y rfl).option (hne y)) (by simp)

end Holds

end Fields

/-! ## Records -/

/-- A name that a record knows is looked up among the known members. -/
theorem lookup_filter_contains {names : List String} {name : String} (h : name ∈ names)
    (members : List (String × Json)) :
    (members.filter fun m => names.contains m.1).lookup name = members.lookup name := by
  induction members with
  | nil => rfl
  | cons m members ih =>
    rw [List.filter_cons, List.lookup_cons]
    split
    · rw [List.lookup_cons, ih]
    · next hm =>
      have hne : (name == m.1) = false := by
        rw [beq_eq_false_iff_ne]
        rintro rfl
        exact hm (by simpa using h)
      rw [hne, ih]

/-- The fields of a record are those of its members that the record knows. Each has the value that
was written for it. -/
theorem fields?_present {parts : List (String × Option Json)} (names : List String)
    (hnodup : (parts.map (·.1)).Nodup) {depth : Nat}
    (hdepth : (object (present parts)).nesting ≤ depth + 1) :
    ∃ fields : Fields, (object (present parts)).fields? names = some fields ∧
      ∀ p ∈ parts, p.1 ∈ names → fields.Holds depth p.1 p.2 := by
  have hknown : (((present parts).filter fun m => names.contains m.1).map (·.1)).Nodup :=
    ((List.filter_sublist.map _).trans (map_fst_present_sublist parts)).nodup hnodup
  refine ⟨_, if_pos hknown, fun p hp hname => ⟨?_, present_nesting_le_succ.mp hdepth p hp⟩⟩
  rw [lookup_filter_contains hname, lookup_present hnodup hp]

namespace Decoder

variable {α : Type} {names : List String} {build : Nat → Fields → Option α}

/-- A record is given back if it is built from fields that hold what was written. -/
theorem Restores.record {x : α} (parts : List (String × Option Json))
    (hnames : parts.map (·.1) = names) (hnodup : names.Nodup)
    (h : ∀ depth fields, (∀ p ∈ parts, Fields.Holds fields depth p.1 p.2) →
      build depth fields = some x) :
    (decodeRecord names build).Restores (.object (present parts)) x := by
  intro depth hdepth
  obtain ⟨depth, rfl⟩ := exists_depth_of_nesting_le hdepth
  obtain ⟨fields, hfields, hholds⟩ := fields?_present names (hnames ▸ hnodup) hdepth
  rw [decodeRecord, hfields]
  exact h depth fields fun p hp => hholds p hp (hnames ▸ List.mem_map_of_mem hp)

namespace Fits

variable {decode : Decoder α} {encode : α → Json} {fields : Fields} {depth : Nat} {name : String}

theorem required (h : decode.Fits encode) {x : α}
    (hx : fields.required name (decode depth) = some x) :
    ∀ json ∈ some (encode x), json.nesting ≤ depth := by
  obtain ⟨json, -, hjson⟩ := Option.bind_eq_some_iff.mp hx
  exact forall_mem_some (h depth json x hjson)

theorem listField (h : decode.Fits encode) {xs : List α}
    (hxs : fields.withDefault name [] (decodeList decode depth) = some xs) :
    ∀ json ∈ listValue? (xs.map encode), json.nesting ≤ depth := by
  unfold Fields.withDefault at hxs
  split at hxs
  · exact forall_mem_listValue? (h.list depth _ xs hxs)
  · cases hxs
    simp [listValue?]

theorem optionField (h : decode.Fits encode) {x : Option α}
    (hx : fields.withDefault name none (decodeOption decode depth) = some x) :
    ∀ json ∈ x.map encode, json.nesting ≤ depth := by
  unfold Fields.withDefault at hx
  split at hx
  · simpa using h.option hx
  · cases hx
    simp

/-- A record fits if the values of its fields fit into one level less. -/
theorem record {parts : α → List (String × Option Json)}
    (hencode : ∀ x, encode x = .object (present (parts x)))
    (h : ∀ depth fields x, build depth fields = some x →
      ∀ p ∈ parts x, ∀ json ∈ p.2, json.nesting ≤ depth) :
    (decodeRecord names build).Fits encode := by
  intro depth json x hx
  cases depth with
  | zero => cases hx
  | succ depth =>
    obtain ⟨fields, -, hbuild⟩ := Option.bind_eq_some_iff.mp hx
    rw [hencode, present_nesting_le_succ]
    exact h depth fields x hbuild

/-- A record fits if nothing is nested in it. -/
theorem flatRecord (h : ∀ x, (encode x).nesting ≤ 1) : (decodeRecord names build).Fits encode := by
  intro depth json x hx
  cases depth with
  | zero => cases hx
  | succ depth => exact Nat.le_trans (h x) (Nat.le_add_left 1 depth)

end Fits

end Decoder

end Metamodel.Json
