import Metamodel.Mark
import Metamodel.Model.DefaultValue

/-!
# Attributes

An attribute is a field of a generated class, with a getter and a setter. It stems from a property
setter of the component, or is an overload that was derived from another attribute. The field is
named by the name of the attribute and the token of its type.
-/

namespace Metamodel

/-- Where an attribute comes from. -/
inductive Provenance where
  /-- A property setter with a parameter of the given name. -/
  | declared (parameter : String)
  /-- The attribute with the given field. -/
  | overload (sourceField : String)
deriving DecidableEq, Repr

/-- How an attribute is generated. -/
structure AttributeFlags where
  /-- The attribute takes part in comparisons. -/
  includeInEquality : Bool
  /-- The attribute need not be set. -/
  optional : Bool
  /-- There is a getter. -/
  generateGetter : Bool
  /-- There is a setter. -/
  generateSetter : Bool
  /-- The field is final. -/
  hasFinalModifier : Bool
  /-- The field is seen in its package only. -/
  packagePrivate : Bool
deriving DecidableEq, Repr

namespace AttributeFlags

/-- A compared, required attribute with both accessors. -/
def standard : AttributeFlags where
  includeInEquality := true
  optional := false
  generateGetter := true
  generateSetter := true
  hasFinalModifier := false
  packagePrivate := false

instance : Inhabited AttributeFlags := ⟨standard⟩

end AttributeFlags

/-- A field of a generated class and its accessors. -/
structure Attribute where
  /-- The name, which the accessors have. -/
  name : String
  /-- The name of the field. -/
  fieldName : String
  /-- The type of the field. -/
  type : TypeRef
  /-- The method of the component that takes the value. -/
  originSetter : String
  /-- Where the attribute comes from. -/
  provenance : Provenance
  /-- How the attribute is generated. -/
  flags : AttributeFlags
  /-- The marks on the getter. -/
  getterMarks : List Mark
  /-- The marks on the setter. -/
  setterMarks : List Mark
  /-- The initial value. -/
  defaultValue : Option DefaultValue
deriving DecidableEq, Repr

namespace Attribute

/-- The field for a name and a type. -/
def fieldNameFor (name : String) (type : TypeRef) : String :=
  name ++ "_" ++ type.token

/-- An attribute with standard flags, without marks and default value. -/
def ofType (name : String) (type : TypeRef) (originSetter : String) (provenance : Provenance) :
    Attribute where
  name := name
  fieldName := fieldNameFor name type
  type := type
  originSetter := originSetter
  provenance := provenance
  flags := .standard
  getterMarks := []
  setterMarks := []
  defaultValue := none

/-- The attribute has the name and the type. -/
def isFor (a : Attribute) (name : String) (type : TypeRef) : Bool :=
  a.name = name && a.type = type

/-- The attribute is derived from another one. -/
def isOverload (a : Attribute) : Bool :=
  match a.provenance with
  | .declared _ => false
  | .overload _ => true

/-- The attribute with marks added to both accessors. -/
def markAccessors (a : Attribute) (marks : List Mark) : Attribute :=
  { a with getterMarks := a.getterMarks ++ marks, setterMarks := a.setterMarks ++ marks }

/-- The name of the setter. -/
def setterName (a : Attribute) : String :=
  a.name

/-- The name of the getter. That of an overload has the token of its type at the end, since the
getter of the attribute it is derived from has the same name and another type. -/
def getterName (a : Attribute) : String :=
  if a.isOverload then a.name ++ a.type.token else a.name

end Attribute

end Metamodel
