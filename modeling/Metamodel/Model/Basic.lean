import Metamodel.Declaration.Basic
import Metamodel.Model.Attribute

/-!
# Models

A model describes the class that is generated for a component: its name and supertype, its
attributes in the order in which they were declared, and the methods that reset the component.
-/

namespace Metamodel

/-- The description of a generated class. -/
structure Model where
  /-- The component, by identity. -/
  component : DeclId
  /-- The component as a class. -/
  componentType : ClassRef
  /-- The generated class. -/
  generated : ClassRef
  /-- The base class of the generated class, with the component as its argument. -/
  supertype : TypeRef
  /-- The layout that the component is made from, as source text. -/
  layout : Option String
  /-- The attributes in order. -/
  attributes : List Attribute
  /-- The methods that are called when the model is unbound, in order. -/
  resetActions : List String
deriving DecidableEq, Repr

namespace Model

/-- The innermost name of the generated class. -/
def generatedClassName (m : Model) : String :=
  m.generated.simpleName

/-- The first attribute of a name and a type. -/
def attribute? (m : Model) (name : String) (type : TypeRef) : Option Attribute :=
  m.attributes.find? (·.isFor name type)

/-- There is an attribute of the name and the type. -/
def hasAttribute (m : Model) (name : String) (type : TypeRef) : Bool :=
  m.attributes.any (·.isFor name type)

/-- The first attribute with a field. -/
def attributeByField? (m : Model) (field : String) : Option Attribute :=
  m.attributes.find? (·.fieldName = field)

/-- There is an attribute with the field. -/
def hasField (m : Model) (field : String) : Bool :=
  m.attributes.any (·.fieldName = field)

/-- The fields in order. -/
def fieldNames (m : Model) : List String :=
  m.attributes.map (·.fieldName)

/-- The attributes that take part in comparisons. -/
def equalityAttributes (m : Model) : List Attribute :=
  m.attributes.filter (·.flags.includeInEquality)

/-- The model with more attributes at the end. -/
def appendAttributes (m : Model) (attributes : List Attribute) : Model :=
  { m with attributes := m.attributes ++ attributes }

/-- The model with one more method to call when it is unbound. -/
def appendReset (m : Model) (method : String) : Model :=
  { m with resetActions := m.resetActions ++ [method] }

end Model

end Metamodel
