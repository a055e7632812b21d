import Metamodel.Text.Dotted

/-!
# References to classes

A class is named by its package and by its name within the package, which is dotted for a nested
class. A configuration names classes by one text: with a dot it is the qualified name, without one
it is the innermost name alone.
-/

namespace Metamodel

/-- A class by package and name. -/
structure ClassRef where
  /-- The package; empty for the unnamed one. -/
  package : String
  /-- The name within the package, dotted for a nested class. -/
  name : String
deriving DecidableEq, Repr, Inhabited

namespace ClassRef

/-- The class of a qualified name: everything before the last dot is taken as the package. -/
def parse (qualified : String) : ClassRef :=
  match Text.splitLast '.' qualified.toList with
  | some (package, name) => ⟨String.ofList package, String.ofList name⟩
  | none => ⟨"", qualified⟩

/-- The innermost name of the class. -/
def simpleName (c : ClassRef) : String :=
  String.ofList (Text.lastSegment '.' c.name.toList)

/-- Package and name, joined by a dot; the name alone in the unnamed package. -/
def qualifiedName (c : ClassRef) : String :=
  if c.package.isEmpty then c.name else c.package ++ "." ++ c.name

instance : ToString ClassRef where
  toString := qualifiedName

/-- A configured name names the class. -/
def matchesName (c : ClassRef) (configured : String) : Bool :=
  if '.' ∈ configured.toList then c.qualifiedName = configured
  else c.simpleName = configured

/-- By package, then by name. -/
instance : Ord ClassRef where
  compare c d := (compare c.package d.package).then (compare c.name d.name)

end ClassRef

end Metamodel
