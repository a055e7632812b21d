import Metamodel.Proofs.Model.Fields

/-!
# What becomes of a property setter

An attempt to attach the attribute of a property setter has four outcomes, and a failure leaves the
model as it was. A model that is made by attempts and derivations has its fields from names and
types, so a field that is taken belongs to another type if the name and type are free.

* `attachInPlace_run_eq_ok`, `attachInPlace_run_eq_error`: what a success and a failure leave.
* `Reached`: the models that are made by attempts and derivations.
* `WellNamed.type_ne_of_fieldName`: why a field that is taken belongs to another type.
* `attachInPlace_settles`: which outcome there is, and what it leaves.
-/

namespace Metamodel

namespace Model

variable {config : Config} {m : Model} {p : Declaration} {a : Attribute} {rejection : Rejection}
  {parameter : Parameter} {rest : List Parameter} {log : List Event} {left : Traced Model}

/-! ## Attempts in place -/

theorem attachInPlace_run_eq_ok :
    (attachInPlace config p).run ⟨m, log⟩ = .ok a left ↔ m.attachment config p = .ok a ∧
      left = ⟨m.appendAttributes [a], log ++ [m.attachmentEvent a]⟩ := by
  rw [attachInPlace_run]
  cases m.attachment config p with
  | error rejection => simp
  | ok b =>
    simp only [EStateM.Result.ok.injEq, Except.ok.injEq]
    constructor
    · rintro ⟨rfl, rfl⟩
      exact ⟨rfl, rfl⟩
    · rintro ⟨rfl, rfl⟩
      exact ⟨rfl, rfl⟩

theorem attachInPlace_run_eq_error :
    (attachInPlace config p).run ⟨m, log⟩ = .error rejection left ↔
      m.attachment config p = .error rejection ∧ left = ⟨m, log⟩ := by
  rw [attachInPlace_run]
  cases m.attachment config p <;> simp [eq_comm]

/-- The models that are made from a component by attempts in place, successful or not, and by
derivations of overloads, in any order and under any configurations. -/
inductive Reached : Model → Prop
  | ofComponent (config : Config) (d : Declaration) : Reached (.ofComponent config d)
  | attached {config : Config} {m : Model} {log : List Event} {p : Declaration} {a : Attribute}
      {left : Traced Model} (hm : Reached m)
      (h : (attachInPlace config p).run ⟨m, log⟩ = .ok a left) : Reached left.value
  | refused {config : Config} {m : Model} {log : List Event} {p : Declaration}
      {rejection : Rejection} {left : Traced Model} (hm : Reached m)
      (h : (attachInPlace config p).run ⟨m, log⟩ = .error rejection left) : Reached left.value
  | synthesized {m : Model} (hm : Reached m) (config : Config) : Reached (m.synthesize config)

/-- Edits go on with the model that an attempt in place leaves. -/
theorem Reached.attachOrKeep (hm : m.Reached) (config : Config) (p : Declaration) :
    (m.attachOrKeep config p).Reached := by
  cases ha : m.attachment config p with
  | ok a =>
    rw [attachOrKeep_of_ok ha]
    have hrun : (attachInPlace config p).run ⟨m, []⟩ = .ok a _ :=
      attachInPlace_run_eq_ok.mpr ⟨ha, rfl⟩
    exact hm.attached hrun
  | error rejection =>
    rw [attachOrKeep_of_error ha]
    exact hm

/-- Such a model has every field from a name and a type, and none twice. -/
theorem Reached.wellNamed (h : m.Reached) : m.WellNamed := by
  induction h with
  | ofComponent config d => exact .ofComponent config d
  | attached hm h ih =>
    obtain ⟨ha, rfl⟩ := attachInPlace_run_eq_ok.mp h
    rw [← attachOrKeep_of_ok ha]
    exact ih.attachOrKeep _ _
  | refused hm h ih =>
    obtain ⟨-, rfl⟩ := attachInPlace_run_eq_error.mp h
    exact ih
  | synthesized hm config ih => exact ih.synthesize config

/-! ## Outcomes -/

/-- In a model whose fields stem from names and types, the field of a name and a type belongs to
other types only, unless the name and type are there: names under one type have different fields. -/
theorem WellNamed.type_ne_of_fieldName (h : m.WellNamed) {name : String} {type : TypeRef}
    (hnone : m.hasAttribute name type = false) {b : Attribute} (hb : b ∈ m.attributes)
    (hfield : b.fieldName = Attribute.fieldNameFor name type) : b.type ≠ type := by
  rintro rfl
  rw [h.fieldName_eq b hb] at hfield
  have hname : b.name = name := Attribute.eq_of_fieldNameFor_eq hfield
  have hhas : m.hasAttribute name b.type = true :=
    List.any_eq_true.mpr ⟨b, hb, by simp [Attribute.isFor, hname]⟩
  rw [hhas] at hnone
  cases hnone

/-- A property setter with a parameter comes to a result at a model, exactly for the cause that the
result tells. A failure leaves the model as it is and reports nothing, and a success appends the
attribute that the parameter and its default value determine. -/
structure Settles (config : Config) (m : Model) (log : List Event) (p : Declaration)
    (parameter : Parameter) (result : EStateM.Result Rejection (Traced Model) Attribute) :
    Prop where
  invalidDefault_iff :
    (∃ member raw,
      result = .error (.invalidDefault p.name member raw parameter.type) ⟨m, log⟩) ↔
      ∃ rejection, resolveDefault config p parameter.type = .error rejection
  duplicate_iff :
    result = .error
        (.duplicateAttribute (toString m.generated) (attributeName p.name) parameter.type)
        ⟨m, log⟩ ↔
      (∃ default, resolveDefault config p parameter.type = .ok default) ∧
        m.hasAttribute (attributeName p.name) parameter.type = true
  collision_iff :
    result = .error (.fieldNameCollision (toString m.generated)
        (Attribute.fieldNameFor (attributeName p.name) parameter.type)) ⟨m, log⟩ ↔
      (∃ default, resolveDefault config p parameter.type = .ok default) ∧
        m.hasAttribute (attributeName p.name) parameter.type = false ∧
        ∃ b ∈ m.attributes,
          b.fieldName = Attribute.fieldNameFor (attributeName p.name) parameter.type
  /-- The text of a collision tells the truth: the field is there for another type. -/
  collides_with_other_type :
    ∀ field, result = .error (.fieldNameCollision (toString m.generated) field) ⟨m, log⟩ →
      ∀ b ∈ m.attributes, b.fieldName = field → b.type ≠ parameter.type
  attached_iff : ∀ a,
    result = .ok a ⟨m.appendAttributes [a], log ++ [m.attachmentEvent a]⟩ ↔
      (∃ default, resolveDefault config p parameter.type = .ok default ∧
        a =
          { name := attributeName p.name
            fieldName := Attribute.fieldNameFor (attributeName p.name) parameter.type
            type := parameter.type
            originSetter := p.name
            provenance := .declared parameter.name
            flags :=
              { AttributeFlags.standard with
                optional := parameter.marks.any config.isNullableMarker }
            getterMarks := parameter.marks
            setterMarks := parameter.marks
            defaultValue := default }) ∧
        m.hasAttribute (attributeName p.name) parameter.type = false ∧
        ∀ b ∈ m.attributes,
          b.fieldName ≠ Attribute.fieldNameFor (attributeName p.name) parameter.type
  appends : ∀ a after, result = .ok a after →
    after = ⟨m.appendAttributes [a], log ++ [m.attachmentEvent a]⟩
  unchanged : ∀ rejection after, result = .error rejection after → after = ⟨m, log⟩

/-- At every model that is made by attempts and derivations, a property setter with a parameter
comes to one of four results, for the first cause that applies. -/
theorem attachInPlace_settles (hm : m.Reached) (hp : p.parameters = parameter :: rest)
    (config : Config) (log : List Event) :
    Settles config m log p parameter ((attachInPlace config p).run ⟨m, log⟩) := by
  rcases attachment_cases config m hp with ⟨rejection, hd, ha⟩ |
    ⟨default, hd, ⟨hkey, ha⟩ | ⟨hkey, ⟨hfield, ha⟩ | ⟨hfield, ha⟩⟩⟩
  · -- The default value is no literal.
    obtain ⟨member, raw, rfl⟩ := resolveDefault_eq_error hd
    constructor <;> simp [attachInPlace_run_eq_ok, attachInPlace_run_eq_error, ha, hd]
  · -- The name and type are there.
    constructor <;> simp [attachInPlace_run_eq_ok, attachInPlace_run_eq_error, ha, hd, hkey]
  · -- The field is there, and the name and type are not.
    have htaken : ∃ b ∈ m.attributes,
        b.fieldName = Attribute.fieldNameFor (attributeName p.name) parameter.type := by
      simpa [hasField] using hfield
    constructor
    case collides_with_other_type =>
      intro field h b hb he
      rw [attachInPlace_run_eq_error, ha] at h
      cases h.1
      exact hm.wellNamed.type_ne_of_fieldName hkey hb he
    all_goals
      simp [attachInPlace_run_eq_ok, attachInPlace_run_eq_error, ha, hd, hkey, htaken]
  · -- Neither is there.
    have hfree : ∀ b ∈ m.attributes,
        ¬b.fieldName = Attribute.fieldNameFor (attributeName p.name) parameter.type := by
      simpa [hasField] using hfield
    constructor
    case collision_iff => simpa [attachInPlace_run_eq_error, ha, hd, hkey] using hfree
    case attached_iff =>
      intro a
      rw [attachInPlace_run_eq_ok, ha]
      constructor
      · rintro ⟨h, -⟩
        cases h
        exact ⟨⟨default, hd, rfl⟩, hkey, hfree⟩
      · rintro ⟨⟨other, ho, rfl⟩, -, -⟩
        rw [hd] at ho
        cases ho
        exact ⟨rfl, rfl⟩
    all_goals simp [attachInPlace_run_eq_ok, attachInPlace_run_eq_error, ha, hd, hkey]

/-- A card with a title that is a text, and its overload. -/
def titledCard : Model :=
  let card := (Declaration.ofClass "com.example" "CardView").extending "android.view.View"
  let setTitle := Declaration.ofMethod card.id "setTitle"
    [⟨"value", .ofName "java.lang.CharSequence", []⟩]
  ((Model.ofComponent .standard card).attachOrKeep .standard setTitle).synthesize .standard

/-- A title that is of a class called `Int`. -/
def setIntTitle : Declaration :=
  .ofMethod titledCard.component "setTitle" [⟨"value", .ofName "com.example.ui.Int", []⟩]

/-- The title cannot be of a class called `Int` as well, because its overload has the field. -/
theorem attachInPlace_settles_titledCard :
    titledCard.Reached ∧
      (attachInPlace .standard setIntTitle).run ⟨titledCard, []⟩ =
        .error (.fieldNameCollision "com.example.CardModel" "title_Int") ⟨titledCard, []⟩ ∧
      ∀ b ∈ titledCard.attributes,
        b.fieldName = "title_Int" → b.type ≠ .ofName "com.example.ui.Int" := by
  have hreached : titledCard.Reached := .synthesized (.attachOrKeep (.ofComponent _ _) _ _) _
  have hsettles := attachInPlace_settles hreached (p := setIntTitle) rfl .standard []
  have hname : toString titledCard.generated = "com.example.CardModel" := by decide +kernel
  have hfield : Attribute.fieldNameFor (attributeName setIntTitle.name)
      (.ofName "com.example.ui.Int") = "title_Int" := by decide +kernel
  have hcollision := hsettles.collision_iff.mpr
    ⟨⟨none, rfl⟩, by decide +kernel, by decide +kernel⟩
  have hother := hsettles.collides_with_other_type _ hcollision
  rw [hname] at hcollision
  rw [hfield] at hcollision hother
  exact ⟨hreached, hcollision, hother⟩

end Model

end Metamodel
