import Metamodel.Json.Decoder
import Metamodel.TypeRef.Form

/-!
# Marks

A mark is what a source author attaches to a declaration or a parameter: the class of the mark and
members with a value each. Values are kept as source text, so that marks of any shape can be
passed on without being understood.
-/

namespace Metamodel

/-- A member of a mark, with its value as source text. -/
structure MarkMember where
  /-- The name of the member. -/
  name : String
  /-- The value as it is written. -/
  value : String
deriving DecidableEq, Repr

/-- A mark on a declaration or a parameter. -/
structure Mark where
  /-- The class of the mark. -/
  type : ClassRef
  /-- The members that the author supplied. -/
  members : List MarkMember
deriving DecidableEq, Repr

namespace Mark

/-- The mark of a qualified name, without members. -/
def ofName (qualified : String) : Mark :=
  ⟨.parse qualified, []⟩

/-- The mark with one more member. -/
def withMember (mark : Mark) (name value : String) : Mark :=
  { mark with members := mark.members ++ [⟨name, value⟩] }

/-- A configured name names the mark. -/
def isNamed (mark : Mark) (configured : String) : Bool :=
  mark.type.matchesName configured

/-- The value of the first member of a name. -/
def member? (mark : Mark) (name : String) : Option String :=
  (mark.members.find? fun m => m.name = name).map (·.value)

end Mark

/-! ## JSON form -/

namespace MarkMember

/-- The record of a member. -/
def toJson (m : MarkMember) : Json :=
  .object [("name", .string m.name), ("value", .string m.value)]

/-- The member of a record. -/
def ofJson : Json.Decoder MarkMember :=
  Json.decodeRecord ["name", "value"] fun depth fields => do
    let name ← fields.required "name" (Json.decodeString depth)
    let value ← fields.required "value" (Json.decodeString depth)
    return ⟨name, value⟩

end MarkMember

namespace Mark

/-- The record of a mark. -/
def toJson (mark : Mark) : Json :=
  .object (("ty", mark.type.toJson) :: Json.listMember "members" (mark.members.map (·.toJson)))

/-- The mark of a record. -/
def ofJson : Json.Decoder Mark :=
  Json.decodeRecord ["ty", "members"] fun depth fields => do
    let type ← fields.required "ty" (ClassRef.ofJson depth)
    let members ← fields.withDefault "members" [] (Json.decodeList MarkMember.ofJson depth)
    return ⟨type, members⟩

end Mark

end Metamodel
