import Metamodel.Declaration.Form

/-!
# Diagnostics

A diagnostic says at which declaration a candidate was given up, for what category of reason, and
why.
-/

namespace Metamodel

/-- A category of reasons. -/
inductive Category where
  /-- The declaration has the wrong kind, modifiers or parameters. -/
  | structural
  /-- The declaration is well formed but does not fit its surroundings. -/
  | semantic
  /-- Something else went wrong while a model was made or handed over. -/
  | internal
deriving DecidableEq, Repr

namespace Category

/-- The category as it is written in a message. -/
def text : Category → String
  | structural => "Structural"
  | semantic => "Semantic"
  | internal => "Internal"

instance : ToString Category where
  toString := text

/-- The name of a category in JSON. -/
def name : Category → String
  | structural => "structural"
  | semantic => "semantic"
  | internal => "internal"

/-- The category of a name. -/
def ofName? (s : String) : Option Category :=
  [structural, semantic, internal].find? (·.name = s)

/-- The category of a value. -/
def ofJson : Json.Decoder Category :=
  Json.decodeName ofName?

end Category

/-- The declaration that a diagnostic is about. -/
structure Location where
  /-- The identity of the declaration. -/
  decl : DeclId
  /-- The name of the declaration. -/
  name : String
deriving DecidableEq, Repr

namespace Location

/-- The location of a declaration. -/
def ofDeclaration (d : Declaration) : Location :=
  ⟨d.id, d.name⟩

/-- The name with the identity behind it. -/
def text (l : Location) : String :=
  l.name ++ " (" ++ toString l.decl ++ ")"

instance : ToString Location where
  toString := text

/-- The record of a location. -/
def toJson (l : Location) : Json :=
  .object [("decl", l.decl.toJson), ("name", .string l.name)]

/-- The location of a record. -/
def ofJson : Json.Decoder Location :=
  Json.decodeRecord ["decl", "name"] fun depth fields => do
    let decl ← fields.required "decl" (DeclId.ofJson depth)
    let name ← fields.required "name" (Json.decodeString depth)
    return ⟨decl, name⟩

end Location

/-- A report on one candidate that was given up. -/
structure Diagnostic where
  /-- The candidate. -/
  location : Location
  /-- The category of the reason. -/
  category : Category
  /-- The reason. -/
  message : String
deriving DecidableEq, Repr

namespace Diagnostic

/-- The diagnostic in one line. -/
def text (d : Diagnostic) : String :=
  toString d.category ++ " error at " ++ toString d.location ++ ": " ++ d.message

instance : ToString Diagnostic where
  toString := text

/-- The record of a diagnostic. -/
def toJson (d : Diagnostic) : Json :=
  .object
    [("location", d.location.toJson), ("class", .string d.category.name),
      ("message", .string d.message)]

/-- The diagnostic of a record. -/
def ofJson : Json.Decoder Diagnostic :=
  Json.decodeRecord ["location", "class", "message"] fun depth fields => do
    let location ← fields.required "location" (Location.ofJson depth)
    let category ← fields.required "class" (Category.ofJson depth)
    let message ← fields.required "message" (Json.decodeString depth)
    return ⟨location, category, message⟩

end Diagnostic

end Metamodel
