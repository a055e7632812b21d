import Metamodel.Declaration.Basic

/-!
# JSON form of declarations

Declarations and their parts are records. Fields with an empty text or list, and a missing
enclosing declaration, are left out; `nesting` is always written. The three lists of candidates
are written even if they are empty.
-/

namespace Metamodel

namespace DeclId

/-- An identity is its text. -/
def toJson (id : DeclId) : Json :=
  .string id.text

/-- The identity of a text. -/
def ofJson : Json.Decoder DeclId := fun depth json =>
  (Json.decodeString depth json).map DeclId.mk

end DeclId

namespace DeclKind

/-- The name of a kind in JSON. -/
def name : DeclKind → String
  | markType => "annotation"
  | classType => "class"
  | constructor => "constructor"
  | enumeration => "enum"
  | field => "field"
  | interface => "interface"
  | method => "method"

/-- The kind of a name. -/
def ofName? (s : String) : Option DeclKind :=
  [markType, classType, constructor, enumeration, field, interface, method].find? (·.name = s)

/-- The kind of a value. -/
def ofJson : Json.Decoder DeclKind :=
  Json.decodeName ofName?

end DeclKind

namespace Modifier

/-- The name of a modifier in JSON. -/
def name : Modifier → String
  | abstract => "abstract"
  | final => "final"
  | privateAccess => "private"
  | protectedAccess => "protected"
  | publicAccess => "public"
  | static => "static"

/-- The modifier of a name. -/
def ofName? (s : String) : Option Modifier :=
  [abstract, final, privateAccess, protectedAccess, publicAccess, static].find? (·.name = s)

/-- The modifier of a value. -/
def ofJson : Json.Decoder Modifier :=
  Json.decodeName ofName?

end Modifier

namespace Nesting

/-- The name of a place in JSON. -/
def name : Nesting → String
  | topLevel => "top_level"
  | member => "member"
  | localScope => "local"
  | anonymous => "anonymous"

/-- The place of a name. -/
def ofName? (s : String) : Option Nesting :=
  [topLevel, member, localScope, anonymous].find? (·.name = s)

/-- The place of a value. -/
def ofJson : Json.Decoder Nesting :=
  Json.decodeName ofName?

end Nesting

namespace Parameter

/-- The record of a parameter. -/
def toJson (p : Parameter) : Json :=
  .object (("name", .string p.name) :: ("ty", p.type.toJson) ::
    Json.listMember "annotations" (p.marks.map (·.toJson)))

/-- The parameter of a record. -/
def ofJson : Json.Decoder Parameter :=
  Json.decodeRecord ["name", "ty", "annotations"] fun depth fields => do
    let name ← fields.required "name" (Json.decodeString depth)
    let type ← fields.required "ty" (TypeRef.ofJson depth)
    let marks ← fields.withDefault "annotations" [] (Json.decodeList Mark.ofJson depth)
    return ⟨name, type, marks⟩

end Parameter

namespace Declaration

/-- The fields of a declaration, in order. -/
def fieldNames : List String :=
  ["id", "name", "kind", "package", "modifiers", "nesting", "enclosing", "supertypes", "parameters",
    "annotations"]

/-- The record of a declaration. -/
def toJson (d : Declaration) : Json :=
  .object
    (("id", d.id.toJson) :: ("name", .string d.name) :: ("kind", .string d.kind.name) ::
      (Json.textMember "package" d.package ++
        (Json.listMember "modifiers" (d.modifiers.map fun m => .string m.name) ++
          ("nesting", .string d.nesting.name) ::
            (Json.optionalMember "enclosing" (d.enclosing.map (·.toJson)) ++
              (Json.listMember "supertypes" (d.supertypes.map .string) ++
                (Json.listMember "parameters" (d.parameters.map (·.toJson)) ++
                  Json.listMember "annotations" (d.marks.map (·.toJson))))))))

/-- The declaration of a record. -/
def ofJson : Json.Decoder Declaration :=
  Json.decodeRecord fieldNames fun depth fields => do
    let id ← fields.required "id" (DeclId.ofJson depth)
    let name ← fields.required "name" (Json.decodeString depth)
    let kind ← fields.required "kind" (DeclKind.ofJson depth)
    let package ← fields.withDefault "package" "" (Json.decodeString depth)
    let modifiers ← fields.withDefault "modifiers" [] (Json.decodeList Modifier.ofJson depth)
    let nesting ← fields.withDefault "nesting" .topLevel (Nesting.ofJson depth)
    let enclosing ← fields.withDefault "enclosing" none (Json.decodeOption DeclId.ofJson depth)
    let supertypes ← fields.withDefault "supertypes" [] (Json.decodeList Json.decodeString depth)
    let parameters ← fields.withDefault "parameters" [] (Json.decodeList Parameter.ofJson depth)
    let marks ← fields.withDefault "annotations" [] (Json.decodeList Mark.ofJson depth)
    return { id, name, kind, package, modifiers, nesting, enclosing, supertypes, parameters, marks }

end Declaration

namespace Candidates

/-- The record of the candidates of a round. -/
def toJson (c : Candidates) : Json :=
  .object
    [("components", .array (c.components.map (·.toJson))),
      ("properties", .array (c.properties.map (·.toJson))),
      ("resets", .array (c.resets.map (·.toJson)))]

/-- The candidates of a record. -/
def ofJson : Json.Decoder Candidates :=
  Json.decodeRecord ["components", "properties", "resets"] fun depth fields => do
    let components ← fields.withDefault "components" [] (Json.decodeList Declaration.ofJson depth)
    let properties ← fields.withDefault "properties" [] (Json.decodeList Declaration.ofJson depth)
    let resets ← fields.withDefault "resets" [] (Json.decodeList Declaration.ofJson depth)
    return ⟨components, properties, resets⟩

/-- The candidates that a text holds. -/
def ofText? : String → Option Candidates :=
  Json.decodeText ofJson

end Candidates

end Metamodel
