import Metamodel.Attempt
import Metamodel.Derivation.Default
import Metamodel.Derivation.Naming
import Metamodel.Model.Basic

/-!
# From declarations to models

A component gives a model without attributes, and a property setter gives an attribute. An
attribute is attached to a model unless the model has one of that name and type, or the field.

* `attachInPlace_run`: an attached attribute stands at the end, and nothing else changes; a failure
  changes nothing.
* `attachLast_eq`: what was attached is found at the end.
-/

namespace Metamodel

/-- The member of the mark of a component for its layout. -/
def layoutMember : String := "defaultLayout"

namespace Model

/-- The model of a component, without attributes. -/
def ofComponent (config : Config) (d : Declaration) : Model where
  component := d.id
  componentType := d.classRef
  generated := ⟨d.package, Metamodel.generatedClassName config d.name⟩
  supertype := .parameterized (.parse config.baseModelType) [.declared d.classRef]
  layout := (d.mark? config.componentMarker).bind (·.member? layoutMember)
  attributes := []
  resetActions := []

end Model

namespace Attribute

/-- The attribute that a method sets by a parameter, with the given default value. The marks on
the parameter are copied to both accessors. -/
def ofParameter (config : Config) (method : String) (p : Parameter)
    (default : Option DefaultValue) : Attribute :=
  let base := ofType (attributeName method) p.type method (.declared p.name)
  { base.markAccessors p.marks with
    flags := { base.flags with optional := p.marks.any config.isNullableMarker }
    defaultValue := default }

/-- The attribute that a property setter sets. -/
def ofSetter (config : Config) (d : Declaration) : Except Rejection Attribute :=
  match d.parameters with
  | [] => .error (.missingParameter d.id)
  | p :: _ => (resolveDefault config d p.type).map (ofParameter config d.name p)

end Attribute

namespace Model

/-- An attribute that may be attached to the model. -/
def checkAttribute (m : Model) (a : Attribute) : Except Rejection Attribute :=
  if m.hasAttribute a.name a.type then
    .error (.duplicateAttribute (toString m.generated) a.name a.type)
  else if m.hasField a.fieldName then
    .error (.fieldNameCollision (toString m.generated) a.fieldName)
  else .ok a

/-- The attribute that a property setter attaches to the model. -/
def attachment (config : Config) (m : Model) (d : Declaration) : Except Rejection Attribute :=
  (Attribute.ofSetter config d).bind m.checkAttribute

/-- What is reported when an attribute is attached to the model. -/
def attachmentEvent (m : Model) (a : Attribute) : Event :=
  .attributeAttached m.generated a.fieldName

/-- The attribute of a property setter is attached to a model in place, and then looked up at its
end. If a step fails, the model is left as the steps before have made it. -/
def attachInPlace (config : Config) (d : Declaration) : Attempt Model Attribute := do
  let a ← ofExcept (Attribute.ofSetter config d)
  let m ← Attempt.current
  let a ← ofExcept (m.checkAttribute a)
  Attempt.report (m.attachmentEvent a)
  Attempt.change fun m => m.appendAttributes [a]
  match (← Attempt.current).attributes.getLast? with
  | some last => return last
  | none => throw .missingAttribute

/-- The model with the attribute of a property setter, and the attribute that then stands at the
end. -/
def attachLast (config : Config) (m : Model) (d : Declaration) :
    Except Rejection (Model × Attribute) :=
  (attachInPlace config d).outcome m

/-- An attached attribute stands at the end of the model and is reported, and nothing else changes.
No step fails behind those that change something, so a failure leaves the model and the reports as
they were. -/
theorem attachInPlace_run (config : Config) (m : Model) (d : Declaration) (log : List Event) :
    (attachInPlace config d).run ⟨m, log⟩ =
      match m.attachment config d with
      | .ok a => .ok a ⟨m.appendAttributes [a], log ++ [m.attachmentEvent a]⟩
      | .error rejection => .error rejection ⟨m, log⟩ := by
  unfold attachment attachInPlace
  cases Attribute.ofSetter config d with
  | error rejection => rfl
  | ok a =>
    simp only [EStateM.run_bind, Attempt.run_ofExcept, Attempt.run_current, Except.bind]
    cases m.checkAttribute a with
    | error rejection => rfl
    | ok b => simp [appendAttributes]

/-- What was attached is found at the end. -/
theorem attachLast_eq (config : Config) (m : Model) (d : Declaration) :
    m.attachLast config d =
      (m.attachment config d).map fun a => (m.appendAttributes [a], a) := by
  rw [attachLast, Attempt.outcome, attachInPlace_run]
  cases m.attachment config d <;> rfl

end Model

end Metamodel
