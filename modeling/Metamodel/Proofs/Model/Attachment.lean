import Metamodel.Derivation.Model

/-!
# Attaching attributes

What it takes for the attribute of a property setter to be attached, and what comes of it. The
causes of failure are looked for in a fixed order: the default value first, then the name and type,
then the field.

* `resolveDefault_eq_error`: the one way in which a default value fails.
* `ofSetter_eq_ok`: the attribute that a property setter sets.
* `attachment_cases`: the four outcomes, each with its cause.
* `attachment_eq_ok`: which attributes can be attached.
* `attachOrKeep`: the model that an attempt leaves; a failed one changes nothing.
-/

namespace Metamodel

/-- A default value fails in one way only: a member of the mark is no literal of the type. -/
theorem resolveDefault_eq_error {config : Config} {p : Declaration} {type : TypeRef}
    {rejection : Rejection} (h : resolveDefault config p type = .error rejection) :
    ∃ member raw, rejection = .invalidDefault p.name member raw type := by
  unfold resolveDefault at h
  split at h
  · split at h
    · cases h
    · split at h
      · cases h
      · split at h
        · cases h
        · cases h
          exact ⟨_, _, rfl⟩
  · cases h

namespace Attribute

variable {config : Config} {p : Declaration} {a : Attribute}

/-- The attribute that a property setter sets by its first parameter. -/
theorem ofSetter_eq_ok :
    ofSetter config p = .ok a ↔ ∃ parameter rest default, p.parameters = parameter :: rest ∧
      resolveDefault config p parameter.type = .ok default ∧
        a = ofParameter config p.name parameter default := by
  unfold ofSetter
  cases p.parameters with
  | nil => simp
  | cons parameter rest =>
    cases hd : resolveDefault config p parameter.type <;> simp [hd, Except.map, eq_comm]

theorem fieldName_ofSetter (h : ofSetter config p = .ok a) :
    a.fieldName = fieldNameFor a.name a.type := by
  obtain ⟨parameter, rest, default, -, -, rfl⟩ := ofSetter_eq_ok.mp h
  rfl

theorem isOverload_ofSetter (h : ofSetter config p = .ok a) : a.isOverload = false := by
  obtain ⟨parameter, rest, default, -, -, rfl⟩ := ofSetter_eq_ok.mp h
  rfl

end Attribute

namespace Model

variable {config : Config} {m : Model} {p : Declaration} {a : Attribute}

/-- The four outcomes for a property setter with a parameter, each with its cause. -/
theorem attachment_cases (config : Config) (m : Model)
    {parameter : Parameter} {rest : List Parameter}
    (hp : p.parameters = parameter :: rest) :
    (∃ rejection, resolveDefault config p parameter.type = .error rejection ∧
      m.attachment config p = .error rejection) ∨
    ∃ default, resolveDefault config p parameter.type = .ok default ∧
      (m.hasAttribute (attributeName p.name) parameter.type = true ∧
        m.attachment config p = .error
          (.duplicateAttribute (toString m.generated) (attributeName p.name) parameter.type) ∨
      m.hasAttribute (attributeName p.name) parameter.type = false ∧
        (m.hasField (Attribute.fieldNameFor (attributeName p.name) parameter.type) = true ∧
          m.attachment config p = .error (.fieldNameCollision (toString m.generated)
            (Attribute.fieldNameFor (attributeName p.name) parameter.type)) ∨
        m.hasField (Attribute.fieldNameFor (attributeName p.name) parameter.type) = false ∧
          m.attachment config p = .ok (.ofParameter config p.name parameter default))) := by
  unfold attachment Attribute.ofSetter
  rw [hp]
  cases hd : resolveDefault config p parameter.type with
  | error rejection => exact .inl ⟨rejection, rfl, by simp [hd, Except.map, Except.bind]⟩
  | ok default =>
    have hname : (Attribute.ofParameter config p.name parameter default).name =
      attributeName p.name := rfl
    have htype : (Attribute.ofParameter config p.name parameter default).type =
      parameter.type := rfl
    have hfield : (Attribute.ofParameter config p.name parameter default).fieldName =
      Attribute.fieldNameFor (attributeName p.name) parameter.type := rfl
    refine .inr ⟨default, rfl, ?_⟩
    simp only [hd, Except.map, Except.bind, checkAttribute, hname, htype, hfield]
    cases m.hasAttribute (attributeName p.name) parameter.type with
    | true => simp
    | false =>
      cases m.hasField (Attribute.fieldNameFor (attributeName p.name) parameter.type) <;> simp

/-- What is attached is the attribute of the property setter, if neither its name and type nor its
field is there. -/
theorem attachment_eq_ok :
    m.attachment config p = .ok a ↔ Attribute.ofSetter config p = .ok a ∧
      m.hasAttribute a.name a.type = false ∧ m.hasField a.fieldName = false := by
  unfold attachment checkAttribute
  cases Attribute.ofSetter config p with
  | error rejection => simp [Except.bind]
  | ok b =>
    simp only [Except.bind]
    constructor
    · intro h
      split at h
      · cases h
      · split at h
        · cases h
        · cases h
          simp_all
    · rintro ⟨hb, hattribute, hfield⟩
      cases hb
      simp [hattribute, hfield]

/-- The model that is left by the attempt to attach the attribute of a property setter in place,
whether that succeeds or not. -/
def attachOrKeep (config : Config) (m : Model) (p : Declaration) : Model :=
  ((attachInPlace config p).after m).value

theorem attachOrKeep_of_ok (h : m.attachment config p = .ok a) :
    m.attachOrKeep config p = m.appendAttributes [a] := by
  rw [attachOrKeep, Attempt.after, attachInPlace_run, h]

theorem attachOrKeep_of_error {rejection : Rejection}
    (h : m.attachment config p = .error rejection) : m.attachOrKeep config p = m := by
  rw [attachOrKeep, Attempt.after, attachInPlace_run, h]

/-- The attributes after an attempt are those before it, and at most that of the property setter. -/
theorem mem_attributes_attachOrKeep (h : a ∈ (m.attachOrKeep config p).attributes) :
    a ∈ m.attributes ∨ Attribute.ofSetter config p = .ok a := by
  cases hp : m.attachment config p with
  | error rejection =>
    rw [attachOrKeep_of_error hp] at h
    exact .inl h
  | ok b =>
    rw [attachOrKeep_of_ok hp] at h
    rcases List.mem_append.mp h with h | h
    · exact .inl h
    · rw [List.mem_singleton.mp h]
      exact .inr (attachment_eq_ok.mp hp).1

/-- The attributes after several attempts are those before them, and others of the property
setters. -/
theorem mem_attributes_foldl_attachOrKeep {setters : List Declaration}
    (h : a ∈ (setters.foldl (·.attachOrKeep config) m).attributes) :
    a ∈ m.attributes ∨ ∃ p ∈ setters, Attribute.ofSetter config p = .ok a := by
  induction setters generalizing m with
  | nil => exact .inl h
  | cons p rest ih =>
    rcases ih h with hm | ⟨q, hq, hset⟩
    · rcases mem_attributes_attachOrKeep hm with hm | hset
      · exact .inl hm
      · exact .inr ⟨p, List.mem_cons_self, hset⟩
    · exact .inr ⟨q, List.mem_cons_of_mem p hq, hset⟩

/-- An attempt to attach an attribute changes nothing but the attributes. -/
theorem attachOrKeep_eq (config : Config) (m : Model) (p : Declaration) :
    m.attachOrKeep config p =
      { m with attributes := (m.attachOrKeep config p).attributes } := by
  cases ha : m.attachment config p with
  | error rejection => rw [attachOrKeep_of_error ha]
  | ok a => rw [attachOrKeep_of_ok ha]; rfl

theorem attachOrKeep_resetActions (config : Config) (m : Model) (p : Declaration) :
    (m.attachOrKeep config p).resetActions = m.resetActions := by
  rw [attachOrKeep_eq]

/-- Attachment does not look at the identity of the property setter. -/
theorem attachOrKeep_withId (config : Config) (m : Model) (p : Declaration) (id : DeclId) :
    m.attachOrKeep config { p with id } = m.attachOrKeep config p := by
  unfold attachOrKeep Attempt.after
  rw [attachInPlace_run, attachInPlace_run]
  unfold attachment Attribute.ofSetter
  cases p.parameters <;> rfl

end Model

end Metamodel
