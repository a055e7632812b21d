import Metamodel.Diagnostic

/-!
# Rejections

Why a candidate was given up, and why an emitter refused a model. A rejection never ends a round;
it becomes a diagnostic at the declaration of the candidate.
-/

namespace Metamodel

/-- Why an emitter did not take a model, or could not write what it took. -/
inductive Refusal where
  /-- A model, or the manifest, could not be made into a record. -/
  | serialization (model error : String)
  /-- Something could not be written. -/
  | writing (error : String)
  /-- The emitter does not want the model. -/
  | rejected (model reason : String)
deriving DecidableEq, Repr

namespace Refusal

/-- The refusal in words. -/
def message : Refusal → String
  | serialization model error => "failed to serialize model " ++ model ++ ": " ++ error
  | writing error => error
  | rejected model reason => "emitter rejected " ++ model ++ ": " ++ reason

end Refusal

/-- Why a candidate was given up. -/
inductive Rejection where
  /-- A component is not a class. -/
  | notAClass (marker name : String)
  /-- A component is abstract. -/
  | abstractClass (marker name : String)
  /-- A component is private. -/
  | privateClass (marker name : String)
  /-- A component stands in another declaration and is not a static member. -/
  | nestedClass (marker name : String)
  /-- A component does not extend the base type of components. -/
  | notASubtype (marker name base : String)
  /-- A member is not a method. -/
  | notAMethod (marker name : String)
  /-- A member has the wrong number of parameters. -/
  | wrongArity (marker name : String) (expected found : Nat)
  /-- A member is private or static. -/
  | privateOrStatic (marker name : String)
  /-- The text of a default value is not a literal of the type. -/
  | invalidDefault (name member value : String) (type : TypeRef)
  /-- A member does not belong to a component. -/
  | orphanMember (marker componentMarker name : String)
  /-- A model has an attribute of the name and type already. -/
  | duplicateAttribute (model name : String) (type : TypeRef)
  /-- A model has the field already, for another type. -/
  | fieldNameCollision (model field : String)
  /-- A component would get the generated class of an earlier one. -/
  | duplicateGeneratedName (generated : String) (previous : DeclId)
  /-- A property setter has no parameter. -/
  | missingParameter (property : DeclId)
  /-- A model to which an attribute was attached has none. -/
  | missingAttribute
  /-- A component was registered before. -/
  | registeredTwice (component : DeclId)
  /-- The emitter refused the model. -/
  | emission (refusal : Refusal)
deriving DecidableEq, Repr

namespace Rejection

/-- The rejection in words. -/
def message : Rejection → String
  | notAClass marker name =>
    marker ++ " annotations can only be on a class (element: " ++ name ++ ")"
  | abstractClass marker name =>
    marker ++ " annotations must not be on abstract classes (class: " ++ name ++ ")"
  | privateClass marker name =>
    marker ++ " annotations must not be on private classes (class: " ++ name ++ ")"
  | nestedClass marker name =>
    "classes with " ++ marker ++ " annotations cannot be nested unless static (class: " ++ name ++
      ")"
  | notASubtype marker name base =>
    "classes with " ++ marker ++ " annotations must extend " ++ base ++ " (class: " ++ name ++ ")"
  | notAMethod marker name =>
    marker ++ " annotations can only be on a method (element: " ++ name ++ ")"
  | wrongArity marker name expected found =>
    "methods annotated with " ++ marker ++ " must have exactly " ++ toString expected ++
      " parameter(s) (method: " ++ name ++ ", found " ++ toString found ++ ")"
  | privateOrStatic marker name =>
    "methods annotated with " ++ marker ++ " cannot be private or static (method: " ++ name ++ ")"
  | invalidDefault name member value type =>
    "invalid " ++ member ++ " value '" ++ value ++ "' for " ++ toString type ++
      " property (method: " ++ name ++ ")"
  | orphanMember marker componentMarker name =>
    marker ++ " annotations can only be used in classes annotated with " ++ componentMarker ++
      " (method: " ++ name ++ ")"
  | duplicateAttribute model name type =>
    "duplicate setter for '" ++ name ++ "' of type " ++ toString type ++ " on " ++ model
  | fieldNameCollision model field =>
    "field '" ++ field ++ "' on " ++ model ++ " is already generated for another type"
  | duplicateGeneratedName generated previous =>
    "generated class " ++ generated ++ " is already produced by " ++ toString previous
  | missingParameter property =>
    "resolving property: " ++ toString property ++ " has no parameter"
  | missingAttribute => "attaching property: attribute list is empty"
  | registeredTwice component =>
    "registering model: component " ++ toString component ++ " registered twice"
  | emission refusal => "error generating model class: " ++ refusal.message

/-- The category of the rejection. -/
def category : Rejection → Category
  | notAClass _ _ => .structural
  | abstractClass _ _ => .structural
  | privateClass _ _ => .structural
  | nestedClass _ _ => .structural
  | notASubtype _ _ _ => .structural
  | notAMethod _ _ => .structural
  | wrongArity _ _ _ _ => .structural
  | privateOrStatic _ _ => .structural
  | invalidDefault _ _ _ _ => .structural
  | orphanMember _ _ _ => .semantic
  | duplicateAttribute _ _ _ => .semantic
  | fieldNameCollision _ _ => .semantic
  | duplicateGeneratedName _ _ => .semantic
  | missingParameter _ => .internal
  | missingAttribute => .internal
  | registeredTwice _ => .internal
  | emission _ => .internal

/-- The diagnostic of the rejection at a location. -/
def atLocation (r : Rejection) (location : Location) : Diagnostic :=
  ⟨location, r.category, r.message⟩

/-- The diagnostic of the rejection of a candidate. -/
def diagnose (r : Rejection) (d : Declaration) : Diagnostic :=
  r.atLocation (.ofDeclaration d)

end Rejection

end Metamodel
