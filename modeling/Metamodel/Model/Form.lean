import Metamodel.Declaration.Form
import Metamodel.Model.Basic

/-!
# JSON form of models

Models, attributes and flags are records. The provenance of an attribute stands among the fields
of the attribute: a field for its kind and one for its content. Empty lists of marks, a missing
layout and a missing default value are left out.

A record of an attribute is an object, never an array. Its members of unknown names are kept until
the provenance has been found among them, so they have to be meaningful.
-/

namespace Metamodel

namespace AttributeFlags

/-- The record of flags. -/
def toJson (f : AttributeFlags) : Json :=
  .object
    [("include_in_equality", .bool f.includeInEquality), ("optional", .bool f.optional),
      ("generate_getter", .bool f.generateGetter), ("generate_setter", .bool f.generateSetter),
      ("has_final_modifier", .bool f.hasFinalModifier),
      ("package_private", .bool f.packagePrivate)]

/-- The flags of a record. -/
def ofJson : Json.Decoder AttributeFlags :=
  Json.decodeRecord
    ["include_in_equality", "optional", "generate_getter", "generate_setter", "has_final_modifier",
      "package_private"]
    fun depth fields => do
      let flag := fun name => fields.required name (Json.decodeBool depth)
      let includeInEquality ← flag "include_in_equality"
      let optional ← flag "optional"
      let generateGetter ← flag "generate_getter"
      let generateSetter ← flag "generate_setter"
      let hasFinalModifier ← flag "has_final_modifier"
      let packagePrivate ← flag "package_private"
      return { includeInEquality, optional, generateGetter, generateSetter, hasFinalModifier,
               packagePrivate }

end AttributeFlags

namespace Provenance

/-- The members that tell the provenance. -/
def members : Provenance → List (String × Json)
  | declared parameter => [("kind", .string "declared"), ("parameter", .string parameter)]
  | overload sourceField =>
    [("kind", .string "synthesized_overload"), ("source_field", .string sourceField)]

/-- The kinds of provenance. A kind is given by its name, or by its place in this list. -/
def kinds : List String := ["declared", "synthesized_overload"]

/-- The name of a kind. -/
def kind? : Json → Option String
  | .string s => if s ∈ kinds then some s else none
  | .number n => (Json.integer? n).bind fun i => if i < 0 then none else kinds[i.toNat]?
  | _ => none

/-- The value of a member that occurs once. -/
def only? (members : List (String × Json)) (name : String) : Option Json :=
  match members.filter fun m => m.1 = name with
  | [(_, json)] => some json
  | _ => none

/-- The provenance that members tell. -/
def ofMembers? (members : List (String × Json)) : Option Provenance := do
  let kind ← (only? members "kind").bind kind?
  if kind = "declared" then
    ((only? members "parameter").bind (Json.decodeString 0)).map declared
  else ((only? members "source_field").bind (Json.decodeString 0)).map overload

end Provenance

namespace Attribute

/-- The fields of an attribute that do not tell its provenance. -/
def fieldNames : List String :=
  ["name", "field_name", "ty", "origin_setter", "flags", "getter_annotations",
    "setter_annotations", "default_value"]

/-- The members of an attribute. -/
def members (a : Attribute) : List (String × Json) :=
  ("name", .string a.name) :: ("field_name", .string a.fieldName) :: ("ty", a.type.toJson) ::
    ("origin_setter", .string a.originSetter) ::
      (a.provenance.members ++ ("flags", a.flags.toJson) ::
        (Json.listMember "getter_annotations" (a.getterMarks.map (·.toJson)) ++
          (Json.listMember "setter_annotations" (a.setterMarks.map (·.toJson)) ++
            Json.optionalMember "default_value" (a.defaultValue.map (·.toJson)))))

/-- The record of an attribute. -/
def toJson (a : Attribute) : Json :=
  .object a.members

/-- The attribute that fields and other members make up. -/
def ofFields (depth : Nat) (fields : Json.Fields) (others : List (String × Json)) :
    Option Attribute := do
  let name ← fields.required "name" (Json.decodeString depth)
  let fieldName ← fields.required "field_name" (Json.decodeString depth)
  let type ← fields.required "ty" (TypeRef.ofJson depth)
  let originSetter ← fields.required "origin_setter" (Json.decodeString depth)
  let flags ← fields.required "flags" (AttributeFlags.ofJson depth)
  let getterMarks ←
    fields.withDefault "getter_annotations" [] (Json.decodeList Mark.ofJson depth)
  let setterMarks ←
    fields.withDefault "setter_annotations" [] (Json.decodeList Mark.ofJson depth)
  let defaultValue ←
    fields.withDefault "default_value" none (Json.decodeOption DefaultValue.ofJson depth)
  let provenance ← Provenance.ofMembers? others
  return { name, fieldName, type, originSetter, provenance, flags, getterMarks, setterMarks,
           defaultValue }

/-- The attribute of a record. -/
def ofJson : Json.Decoder Attribute
  | depth + 1, .object members => do
    let fields ← (Json.object members).fields? fieldNames
    let others := members.filter fun m => !fieldNames.contains m.1
    if others.all fun m => m.2.isMeaningful depth then ofFields depth fields others else none
  | _, _ => none

end Attribute

namespace Model

/-- The fields of a model, in order. -/
def recordNames : List String :=
  ["component", "component_type", "generated", "supertype", "layout", "attributes",
    "reset_actions"]

/-- The record of a model around the given records of its attributes. -/
def toJsonWith (m : Model) (attributes : List Json) : Json :=
  .object
    (("component", m.component.toJson) :: ("component_type", m.componentType.toJson) ::
      ("generated", m.generated.toJson) :: ("supertype", m.supertype.toJson) ::
        (Json.optionalMember "layout" (m.layout.map .string) ++
          [("attributes", .array attributes),
            ("reset_actions", .array (m.resetActions.map .string))]))

/-- The record of a model. -/
def toJson (m : Model) : Json :=
  m.toJsonWith (m.attributes.map (·.toJson))

/-- The model of a record. -/
def ofJson : Json.Decoder Model :=
  Json.decodeRecord recordNames fun depth fields => do
    let component ← fields.required "component" (DeclId.ofJson depth)
    let componentType ← fields.required "component_type" (ClassRef.ofJson depth)
    let generated ← fields.required "generated" (ClassRef.ofJson depth)
    let supertype ← fields.required "supertype" (TypeRef.ofJson depth)
    let layout ← fields.withDefault "layout" none (Json.decodeOption Json.decodeString depth)
    let attributes ← fields.required "attributes" (Json.decodeList Attribute.ofJson depth)
    let resetActions ← fields.required "reset_actions" (Json.decodeList Json.decodeString depth)
    return { component, componentType, generated, supertype, layout, attributes, resetActions }

end Model

end Metamodel
