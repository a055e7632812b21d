import Metamodel.Mark

/-!
# Declarations

A declaration is an element of the source that was found to carry a mark: a class, a method, or
something that should not carry it. Members point at the declaration around them by its identity.
The candidates of a round are three lists of declarations: components, property setters and reset
methods.

* `hasModifier_withModifier`, `hasModifier_withoutModifier`: what adding and removing a modifier
  does.
-/

namespace Metamodel

/-- The identity of a declaration, as it was assigned when the declaration was found. -/
structure DeclId where
  /-- The text of the identity, which has no meaning here. -/
  text : String
deriving DecidableEq, Repr, Inhabited

instance : ToString DeclId where
  toString id := id.text

/-- What is declared. -/
inductive DeclKind where
  /-- The declaration of a mark. -/
  | markType
  /-- A class. -/
  | classType
  /-- A constructor. -/
  | constructor
  /-- An enumeration. -/
  | enumeration
  /-- A field. -/
  | field
  /-- An interface. -/
  | interface
  /-- A method. -/
  | method
deriving DecidableEq, Repr

/-- A modifier of a declaration. -/
inductive Modifier where
  /-- Without an implementation. -/
  | abstract
  /-- Not to be overridden. -/
  | final
  /-- Seen in its class only. -/
  | privateAccess
  /-- Seen in its class, its package and derived classes. -/
  | protectedAccess
  /-- Seen everywhere. -/
  | publicAccess
  /-- Independent of an instance. -/
  | static
deriving DecidableEq, Repr

/-- Where a declaration stands. -/
inductive Nesting where
  /-- Directly in a package. -/
  | topLevel
  /-- In the body of a class. -/
  | member
  /-- In a block of statements. -/
  | localScope
  /-- In an expression, without a name. -/
  | anonymous
deriving DecidableEq, Repr

namespace Nesting

/-- The declaration stands within another one. -/
def isNested (n : Nesting) : Bool :=
  n != topLevel

end Nesting

/-- A parameter of a method. -/
structure Parameter where
  /-- The name in the source. -/
  name : String
  /-- The declared type. -/
  type : TypeRef
  /-- The marks on the parameter. -/
  marks : List Mark
deriving DecidableEq, Repr

/-- An element of the source. -/
structure Declaration where
  /-- The identity of the declaration. -/
  id : DeclId
  /-- The name in the source. -/
  name : String
  /-- What is declared. -/
  kind : DeclKind
  /-- The package of a class; empty for the unnamed one. -/
  package : String
  /-- The modifiers. -/
  modifiers : List Modifier
  /-- Where the declaration stands. -/
  nesting : Nesting
  /-- The declaration around a member. -/
  enclosing : Option DeclId
  /-- The qualified names of all ancestors of a class. -/
  supertypes : List String
  /-- The parameters of a method. -/
  parameters : List Parameter
  /-- The marks on the declaration. -/
  marks : List Mark
deriving DecidableEq, Repr

namespace Declaration

/-! ## Construction -/

/-- A declaration with nothing but an identity, a name and a kind. -/
def ofKind (id name : String) (kind : DeclKind) : Declaration where
  id := ⟨id⟩
  name := name
  kind := kind
  package := ""
  modifiers := []
  nesting := .topLevel
  enclosing := none
  supertypes := []
  parameters := []
  marks := []

/-- The declaration in another package. -/
def inPackage (d : Declaration) (package : String) : Declaration :=
  { d with package }

/-- The declaration with a modifier, which is appended if it is not there yet. -/
def withModifier (d : Declaration) (m : Modifier) : Declaration :=
  if m ∈ d.modifiers then d else { d with modifiers := d.modifiers ++ [m] }

/-- The declaration without a modifier. -/
def withoutModifier (d : Declaration) (m : Modifier) : Declaration :=
  { d with modifiers := d.modifiers.filter (· ≠ m) }

/-- The declaration at another place. -/
def nested (d : Declaration) (nesting : Nesting) : Declaration :=
  { d with nesting }

/-- The declaration as a member of another one. -/
def enclosedBy (d : Declaration) (owner : DeclId) : Declaration :=
  { d with enclosing := some owner }

/-- The declaration with one more ancestor. -/
def extending (d : Declaration) (supertype : String) : Declaration :=
  { d with supertypes := d.supertypes ++ [supertype] }

/-- The declaration with one more mark. -/
def marked (d : Declaration) (mark : Mark) : Declaration :=
  { d with marks := d.marks ++ [mark] }

/-- A public class. Its identity is its qualified name. -/
def ofClass (package name : String) : Declaration :=
  ((ofKind (ClassRef.mk package name).qualifiedName name .classType).inPackage package).withModifier
    .publicAccess

/-- A public method of an owner. Its identity is made of that of the owner, its name and the types
of its parameters. -/
def ofMethod (owner : DeclId) (name : String) (parameters : List Parameter) : Declaration :=
  let signature := ",".intercalate (parameters.map fun p => p.type.text)
  let base := ofKind (owner.text ++ "#" ++ name ++ "(" ++ signature ++ ")") name .method
  { ((base.withModifier .publicAccess).enclosedBy owner).nested .member with parameters }

/-! ## Questions -/

/-- The declaration has the modifier. -/
def hasModifier (d : Declaration) (m : Modifier) : Bool :=
  m ∈ d.modifiers

/-- The first mark that a configured name names. -/
def mark? (d : Declaration) (configured : String) : Option Mark :=
  d.marks.find? (·.isNamed configured)

/-- The declaration as a class. -/
def classRef (d : Declaration) : ClassRef :=
  ⟨d.package, d.name⟩

/-- A configured name names the declaration itself or one of its ancestors. -/
def isSubtypeOf (d : Declaration) (base : String) : Bool :=
  d.classRef.matchesName base || d.supertypes.any fun s => (ClassRef.parse s).matchesName base

/-- Adding a modifier adds that one and keeps the others. -/
theorem hasModifier_withModifier (d : Declaration) (m n : Modifier) :
    (d.withModifier m).hasModifier n = (n = m || d.hasModifier n) := by
  unfold withModifier hasModifier
  split
  · by_cases h : n = m <;> simp_all
  · simp [Bool.or_comm]

/-- Removing a modifier removes that one and keeps the others. -/
theorem hasModifier_withoutModifier (d : Declaration) (m n : Modifier) :
    (d.withoutModifier m).hasModifier n = (n ≠ m && d.hasModifier n) := by
  simp [withoutModifier, hasModifier, and_comm]

end Declaration

/-- The declarations of one round. -/
structure Candidates where
  /-- The classes that a model is asked for. -/
  components : List Declaration
  /-- The methods that set a property of a component. -/
  properties : List Declaration
  /-- The methods that reset a component. -/
  resets : List Declaration
deriving DecidableEq, Repr

namespace Candidates

instance : EmptyCollection Candidates := ⟨⟨[], [], []⟩⟩

/-- The number of candidates of all kinds. -/
def size (c : Candidates) : Nat :=
  c.components.length + c.properties.length + c.resets.length

/-- There are no candidates. -/
def isEmpty (c : Candidates) : Bool :=
  c.size = 0

end Candidates

end Metamodel
