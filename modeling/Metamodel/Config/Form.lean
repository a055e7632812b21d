import Metamodel.Config.Basic
import Metamodel.Json.Decoder

/-!
# JSON form of configurations

A configuration is a closed record of all settings. A setting that is not there has its standard
value.
-/

namespace Metamodel.Config

/-- The keys of all settings, in order. -/
def keys : List String :=
  ["base_view_type", "base_model_type", "strip_suffix", "model_suffix", "generated_suffix",
    "component_marker", "property_marker", "reset_marker", "nullable_markers", "text_types",
    "resource_marker"]

/-- The record of a configuration. -/
def toJson (config : Config) : Json :=
  .object
    [("base_view_type", .string config.baseViewType),
      ("base_model_type", .string config.baseModelType),
      ("strip_suffix", .string config.stripSuffix),
      ("model_suffix", .string config.modelSuffix),
      ("generated_suffix", .string config.generatedSuffix),
      ("component_marker", .string config.componentMarker),
      ("property_marker", .string config.propertyMarker),
      ("reset_marker", .string config.resetMarker),
      ("nullable_markers", .array (config.nullableMarkers.map .string)),
      ("text_types", .array (config.textTypes.map .string)),
      ("resource_marker", .string config.resourceMarker)]

/-- The configuration with the settings that are given by the fields of a record. -/
def ofFields (depth : Nat) (fields : Json.Fields) : Option Config := do
  let text := fun key value => fields.withDefault key value (Json.decodeString depth)
  let texts := fun key values =>
    fields.withDefault key values (Json.decodeList Json.decodeString depth)
  let baseViewType ← text "base_view_type" standard.baseViewType
  let baseModelType ← text "base_model_type" standard.baseModelType
  let stripSuffix ← text "strip_suffix" standard.stripSuffix
  let modelSuffix ← text "model_suffix" standard.modelSuffix
  let generatedSuffix ← text "generated_suffix" standard.generatedSuffix
  let componentMarker ← text "component_marker" standard.componentMarker
  let propertyMarker ← text "property_marker" standard.propertyMarker
  let resetMarker ← text "reset_marker" standard.resetMarker
  let nullableMarkers ← texts "nullable_markers" standard.nullableMarkers
  let textTypes ← texts "text_types" standard.textTypes
  let resourceMarker ← text "resource_marker" standard.resourceMarker
  return { baseViewType, baseModelType, stripSuffix, modelSuffix, generatedSuffix,
           componentMarker, propertyMarker, resetMarker, nullableMarkers, textTypes,
           resourceMarker }

/-- The configuration of a record. -/
def ofJson : Json.Decoder Config := fun depth json =>
  if json.isClosed keys then Json.decodeRecord keys ofFields depth json else none

end Metamodel.Config
