import Metamodel.Mark
import Metamodel.Problems
import Metamodel.Text.Blank

/-!
# Configuration

The configuration names the marks and the platform types that count in processing, and says how
generated classes are named. A name without a package stands for every class of that simple name.

`problems` collects what is wrong with a configuration, and `validate` accepts one without
problems.
-/

namespace Metamodel

/-- Which marks and types count, and how classes are named. -/
structure Config where
  /-- The type that every component extends. -/
  baseViewType : String
  /-- The generic class that every model extends. -/
  baseModelType : String
  /-- What is removed from the end of the name of a component. -/
  stripSuffix : String
  /-- What is appended to that name first. -/
  modelSuffix : String
  /-- What is appended to that name last. -/
  generatedSuffix : String
  /-- The mark of components. -/
  componentMarker : String
  /-- The mark of property setters. -/
  propertyMarker : String
  /-- The mark of reset methods. -/
  resetMarker : String
  /-- The marks of parameters that may be missing. -/
  nullableMarkers : List String
  /-- The types that can be given by a resource as well. -/
  textTypes : List String
  /-- The mark of parameters that name a resource. -/
  resourceMarker : String
deriving DecidableEq, Repr

namespace Config

/-- The configuration that holds unless something else is said. -/
def standard : Config where
  baseViewType := "android.view.View"
  baseModelType := "com.airbnb.epoxy.EpoxyModel"
  stripSuffix := "View"
  modelSuffix := "Model"
  generatedSuffix := ""
  componentMarker := "com.airbnb.epoxy.ModelView"
  propertyMarker := "com.airbnb.epoxy.ModelProp"
  resetMarker := "com.airbnb.epoxy.ResetView"
  nullableMarkers := ["android.support.annotation.Nullable", "androidx.annotation.Nullable"]
  textTypes := ["java.lang.CharSequence", "java.lang.String"]
  resourceMarker := "android.support.annotation.StringRes"

instance : Inhabited Config := ⟨standard⟩

/-! ## Questions -/

/-- The mark says that its parameter may be missing. -/
def isNullableMarker (config : Config) (mark : Mark) : Bool :=
  config.nullableMarkers.any mark.isNamed

/-- The type is a class that can be given by a resource as well. -/
def isTextType (config : Config) : TypeRef → Bool
  | .declared c => config.textTypes.any c.matchesName
  | _ => false

/-- The simple name of a configured mark as it is written in source text. -/
def markerLabel (marker : String) : String :=
  "@" ++ (ClassRef.parse marker).simpleName

/-! ## Validity -/

/-- The base types with the keys under which they are configured. -/
def baseTypes (config : Config) : List (String × String) :=
  [("base_view_type", config.baseViewType), ("base_model_type", config.baseModelType)]

/-- The marks with the keys under which they are configured. -/
def markers (config : Config) : List (String × String) :=
  [("component_marker", config.componentMarker), ("property_marker", config.propertyMarker),
    ("reset_marker", config.resetMarker), ("resource_marker", config.resourceMarker)]

/-- The entries of a list with the keys under which they are reported. -/
def entries (key : String) (values : List String) : List (String × String) :=
  values.zipIdx.map fun (value, i) => (key ++ "[" ++ toString i ++ "]", value)

/-- A base type that is not qualified. -/
def unqualified (values : List (String × String)) : List (String × String) :=
  (values.filter fun (_, value) => '.' ∉ value.toList).map fun (key, value) =>
    (key, "'" ++ value ++ "' must be a qualified type name")

/-- A value that has to name something and is empty without the blank characters around it. -/
def blank (values : List (String × String)) : List (String × String) :=
  (values.filter fun (_, value) => (Text.trim value).isEmpty).map fun (key, _) =>
    (key, "must not be empty")

/-- The message for names that would make a generated class shadow its component. -/
def shadowingMessage : String :=
  "model_suffix and generated_suffix are both empty; " ++
    "generated classes would shadow their components"

/-- The keys and messages of all settings that are wrong on their own. -/
def violations (config : Config) : List (String × String) :=
  unqualified config.baseTypes ++ blank config.markers ++
    blank (entries "nullable_markers" config.nullableMarkers) ++
    blank (entries "text_types" config.textTypes)

/-- Generated classes may have the names of their components. -/
def mayShadow (config : Config) : Bool :=
  config.modelSuffix.isEmpty && config.generatedSuffix.isEmpty

/-- All that is wrong with the configuration, by key. -/
def problems (config : Config) : Problems :=
  config.violations.foldl (fun p (key, message) => p.addFor key message)
    (if config.mayShadow then Problems.empty.add shadowingMessage else .empty)

/-- The configuration has no problem, or its problems are the failure. -/
def validate (config : Config) : Except Problems Unit :=
  config.problems.toExcept

end Config

end Metamodel
