import Metamodel.Proofs.Model.Overloads
import Metamodel.Proofs.Round.Local

/-!
# The fields of a model

A model is made from a component by attaching attributes and deriving overloads. An attribute is not
attached if its name and type or its field are there, and an overload is not derived if its field is
there or an overload of its name. Taken together these checks keep the fields of a model apart,
although names and tokens of types may hold the separator and types may share a token.

* `WellNamed`: the fields are those of the names and types, and differ from each other.
* `WellNamed.attachOrKeep`, `WellNamed.synthesize`: what one edit keeps.
* `fields_unique`: no run of edits and no round gives a model with a field twice.
-/

namespace Metamodel

/-- Names under one type have different fields. -/
theorem Attribute.eq_of_fieldNameFor_eq {name other : String} {type : TypeRef}
    (h : fieldNameFor name type = fieldNameFor other type) : name = other :=
  (String.append_left_inj "_").mp ((String.append_left_inj type.token).mp h)

namespace Model

/-- Every field is that of its name and type, and no field occurs twice. -/
structure WellNamed (m : Model) : Prop where
  fieldName_eq : ∀ a ∈ m.attributes, a.fieldName = Attribute.fieldNameFor a.name a.type
  fieldNames_nodup : m.fieldNames.Nodup

/-- One step on the way from a component to its model. -/
inductive Edit where
  /-- The attribute of a property setter is attached, if it can be. -/
  | attach (config : Config) (p : Declaration)
  /-- The overloads that are missing are derived. -/
  | synthesize (config : Config)

/-- The model after an edit. -/
def edit (m : Model) : Edit → Model
  | .attach config p => m.attachOrKeep config p
  | .synthesize config => m.synthesize config

/-- The model after several edits, one after another. -/
def editAll (m : Model) (edits : List Edit) : Model :=
  edits.foldl edit m

variable {config : Config} {m n : Model}

/-- What every edit keeps, any run of edits keeps. -/
theorem editAll_of_edit {P : Model → Prop} (hedit : ∀ (m : Model) (e : Edit), P m → P (m.edit e))
    (h : P m) (edits : List Edit) : P (m.editAll edits) := by
  induction edits generalizing m with
  | nil => exact h
  | cons e rest ih => exact ih (hedit m e h)

/-! ## Well named models -/

theorem hasField_eq_false {field : String} :
    m.hasField field = false ↔ field ∉ m.fieldNames := by
  simp [hasField, fieldNames]

namespace WellNamed

/-- No name and type occur twice, since they would have one field. -/
theorem keys_nodup (h : m.WellNamed) : (m.attributes.map fun a => (a.name, a.type)).Nodup := by
  have hfields : m.fieldNames = (m.attributes.map fun a => (a.name, a.type)).map fun k =>
      Attribute.fieldNameFor k.1 k.2 := by
    rw [fieldNames, List.map_map]
    exact List.map_congr_left h.fieldName_eq
  have hn := h.fieldNames_nodup
  rw [hfields] at hn
  exact List.Pairwise.of_map _ (fun k l hne he => hne (by rw [he])) hn

/-- The attributes alone decide. -/
theorem of_attributes (h : m.WellNamed) (hn : n.attributes = m.attributes) : n.WellNamed := by
  constructor
  · rw [hn]
    exact h.fieldName_eq
  · rw [fieldNames, hn]
    exact h.fieldNames_nodup

/-- Attributes with new fields that differ from each other can be appended. -/
theorem appendAttributes (h : m.WellNamed) {more : List Attribute}
    (hmore : ∀ a ∈ more, a.fieldName = Attribute.fieldNameFor a.name a.type)
    (hnodup : (more.map (·.fieldName)).Nodup) (hnew : ∀ a ∈ more, m.hasField a.fieldName = false) :
    (m.appendAttributes more).WellNamed := by
  constructor
  · intro a ha
    rcases List.mem_append.mp ha with ha | ha
    · exact h.fieldName_eq a ha
    · exact hmore a ha
  · show ((m.attributes ++ more).map (·.fieldName)).Nodup
    rw [List.map_append, List.nodup_append]
    refine ⟨h.fieldNames_nodup, hnodup, fun x hx y hy he => ?_⟩
    obtain ⟨a, ha, rfl⟩ := List.mem_map.mp hy
    exact hasField_eq_false.mp (hnew a ha) (he ▸ hx)

theorem ofComponent (config : Config) (d : Declaration) : (Model.ofComponent config d).WellNamed :=
  ⟨by simp [Model.ofComponent], by simp [Model.ofComponent, fieldNames]⟩

/-- An attribute is only attached under a new field. -/
theorem attachOrKeep (h : m.WellNamed) (config : Config) (p : Declaration) :
    (m.attachOrKeep config p).WellNamed := by
  cases ha : m.attachment config p with
  | error rejection => rwa [attachOrKeep_of_error ha]
  | ok a =>
    obtain ⟨hset, -, hfield⟩ := attachment_eq_ok.mp ha
    rw [attachOrKeep_of_ok ha]
    refine h.appendAttributes ?_ (by simp) (by simpa using hfield)
    simpa using Attribute.fieldName_ofSetter hset

/-- Overloads have new fields, and different ones since their names differ. -/
theorem synthesize (h : m.WellNamed) (config : Config) : (m.synthesize config).WellNamed := by
  rw [m.synthesize_eq, overloads_eq]
  apply h.appendAttributes
  · simp
  · have hn := names_overloadSources_nodup config m [] m.attributes
    rw [List.Nodup, List.pairwise_map] at hn
    rw [List.map_map, List.Nodup, List.pairwise_map]
    exact hn.imp fun hne he => hne (Attribute.eq_of_fieldNameFor_eq he)
  · intro o ho
    obtain ⟨a, ha, rfl⟩ := List.mem_map.mp ho
    have hl := (mem_overloadSources ha).2.2.1
    simpa [lacksOverload] using ((Bool.and_eq_true _ _).mp hl).2

theorem edit (h : m.WellNamed) (e : Edit) : (m.edit e).WellNamed := by
  cases e with
  | attach config p => exact h.attachOrKeep config p
  | synthesize config => exact h.synthesize config

theorem editAll (h : m.WellNamed) (edits : List Edit) : (m.editAll edits).WellNamed :=
  editAll_of_edit (fun _ e h => h.edit e) h edits

end WellNamed

end Model

/-! ## Rounds -/

namespace Round

/-- The attributes of the model of a round are reached by edits, from the component alone. -/
theorem localModel_attributes (config : Config) (input : Candidates) (d : Declaration) :
    ∃ edits : List Model.Edit, (localModel config input d).attributes =
      ((Model.ofComponent config d).editAll edits).attributes := by
  refine ⟨(ownMembers config .property d.id input.properties).map (.attach config) ++
    [.synthesize config], ?_⟩
  rw [localModel, addOwnResets_attributes, Model.editAll, List.foldl_append, List.foldl_map]
  rfl

theorem localModel_wellNamed (config : Config) (input : Candidates) (d : Declaration) :
    (localModel config input d).WellNamed := by
  obtain ⟨edits, he⟩ := localModel_attributes config input d
  exact ((Model.WellNamed.ofComponent config d).editAll edits).of_attributes he

end Round

/-- No run of edits, accepted or not and under whatever configurations, leads from a component to a
model in which a field is not that of its name and type, or in which a field or a name and type
occurs twice. So no emitter is given such a model by a round. -/
theorem fields_unique :
    (∀ (config : Config) (d : Declaration) (edits : List Model.Edit),
      ((Model.ofComponent config d).editAll edits).WellNamed ∧
        (((Model.ofComponent config d).editAll edits).attributes.map
          fun a => (a.name, a.type)).Nodup) ∧
    ∀ {σ : Type} (config : Config) (emitter : Emitter σ) (s : σ) (input : Candidates),
      ∀ m ∈ (Round.run config emitter s input).1.models,
        m.WellNamed ∧ (m.attributes.map fun a => (a.name, a.type)).Nodup := by
  refine ⟨fun config d edits => ?_, fun config emitter s input m hm => ?_⟩
  · have h := (Model.WellNamed.ofComponent config d).editAll edits
    exact ⟨h, h.keys_nodup⟩
  · obtain ⟨d, -, rfl⟩ := Round.mem_run_models hm
    have h := Round.localModel_wellNamed config input d
    exact ⟨h, h.keys_nodup⟩

/-- A card with a heading that is a text or of a class called `Int`, and a title. The heading gets
no overload, since its field is there. -/
def intTokenRound : Candidates where
  components := [(Declaration.ofClass "com.example" "CardView").extending "android.view.View"]
  properties :=
    [("setHeading", "java.lang.CharSequence"), ("setHeading", "com.example.ui.Int"),
      ("setTitle", "java.lang.String")].map fun (method, type) =>
        .ofMethod ⟨"com.example.CardView"⟩ method [⟨"value", .ofName type, []⟩]
  resets := []

theorem fields_unique_int_token :
    ∃ m ∈ (Round.run .standard .null () intTokenRound).1.models,
      m.fieldNames = ["heading_CharSequence", "heading_Int", "title_String", "title_Int"] ∧
        m.WellNamed := by
  have h : ∃ m ∈ (Round.run .standard .null () intTokenRound).1.models,
      m.fieldNames = ["heading_CharSequence", "heading_Int", "title_String", "title_Int"] := by
    decide +kernel
  obtain ⟨m, hm, hfields⟩ := h
  exact ⟨m, hm, hfields, (fields_unique.2 .standard .null () intTokenRound m hm).1⟩

end Metamodel
