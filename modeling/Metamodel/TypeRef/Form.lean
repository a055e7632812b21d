import Metamodel.Json.Decoder
import Metamodel.TypeRef.Basic

/-!
# JSON form of types

A type is an object with one member, which is named for the kind of the type. A class is a record
of package and name, and the package is left out if it is empty.
-/

namespace Metamodel

namespace Primitive

/-- A primitive type is its keyword. -/
def toJson (p : Primitive) : Json :=
  .string p.keyword

/-- The primitive type with a keyword. -/
def ofJson : Json.Decoder Primitive :=
  Json.decodeName ofKeyword?

end Primitive

namespace ClassRef

/-- The fields of a class, in order. -/
def fieldNames : List String := ["package", "name"]

/-- The record of a class. -/
def toJson (c : ClassRef) : Json :=
  .object (Json.textMember "package" c.package ++ [("name", .string c.name)])

/-- The class of a record. -/
def ofJson : Json.Decoder ClassRef :=
  Json.decodeRecord fieldNames fun depth fields => do
    let package ← fields.withDefault "package" "" (Json.decodeString depth)
    let name ← fields.required "name" (Json.decodeString depth)
    return ⟨package, name⟩

end ClassRef

namespace TypeRef

mutual

/-- The object of a type. -/
def toJson : TypeRef → Json
  | primitive p => .object [("primitive", p.toJson)]
  | declared c => .object [("class", c.toJson)]
  | array element => .object [("array", element.toJson)]
  | parameterized raw arguments =>
    .object
      [("parameterized",
        .object [("raw", raw.toJson), ("args", .array (listToJson arguments))])]
  | typeVariable name => .object [("type_variable", .string name)]

/-- The objects of types. -/
def listToJson : List TypeRef → List Json
  | [] => []
  | t :: rest => t.toJson :: listToJson rest

end

/-- The type of an object. Every type opens at least one object, so the depth that is left bounds
the recursion. -/
def ofJson : Json.Decoder TypeRef
  | depth + 1, .object [(kind, json)] =>
    if kind = "primitive" then (Primitive.ofJson depth json).map .primitive
    else if kind = "class" then (ClassRef.ofJson depth json).map .declared
    else if kind = "array" then (ofJson depth json).map .array
    else if kind = "type_variable" then (Json.decodeString depth json).map .typeVariable
    else if kind = "parameterized" then
      match depth with
      | depth + 2 => do
        let fields ← json.fields? ["raw", "args"]
        let raw ← fields.required "raw" (ClassRef.ofJson (depth + 1))
        let arguments ← fields.required "args" fun
          | .array items => items.mapM (ofJson depth)
          | _ => none
        return .parameterized raw arguments
      | _ => none
    else none
  | _, _ => none

end TypeRef

end Metamodel
