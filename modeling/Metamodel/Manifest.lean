import Metamodel.Emitter
import Metamodel.Json.Printer
import Metamodel.Model.Form
import Metamodel.Writer

/-!
# Manifests

A manifest holds the models of the last round and is written as one JSON document, with an end of
line behind it.
-/

namespace Metamodel

/-- The models that a manifest holds. -/
abbrev Manifest := List Model

namespace Manifest

/-- The emitter that collects the models of the last round. A model without a record would be
refused with `Refusal.serialization`, but every model has one: the keys of its record are texts, the
parts are texts, numbers, flags and lists of such, and a number that is not finite is written as
`null`. For the same reason the record of a manifest exists, whatever models it holds. -/
def emitter : Emitter Manifest where
  beginRound _ := []
  emit models m := (models ++ [m], .ok ())

/-- The record of a manifest. -/
def toJson (models : Manifest) : Json :=
  .object [("models", .array (models.map (·.toJson)))]

/-- The manifest as a document. -/
def text (models : Manifest) : String :=
  models.toJson.pretty

/-- The manifest of a record. -/
def ofJson : Json.Decoder Manifest :=
  Json.decodeRecord ["models"] fun depth fields =>
    fields.required "models" (Json.decodeList Model.ofJson depth)

/-- The document and the end of its line, as they are written. -/
def bytes (models : Manifest) : Bytes :=
  textBytes models.text ++ textBytes "\n"

/-- The document is written, and then the end of its line. A failure of the first keeps the second
from being tried. -/
def write {ω : Type} (writeAll : ω → Bytes → ω × Except String Unit) (s : ω) (models : Manifest) :
    ω × Except Refusal Unit :=
  match writeAll s (textBytes models.text) with
  | (s, .error e) => (s, .error (.writing e))
  | (s, .ok ()) =>
    match writeAll s (textBytes "\n") with
    | (s, .error e) => (s, .error (.writing e))
    | (s, .ok ()) => (s, .ok ())

/-- The manifest is written through a buffer that is dropped afterwards. -/
def writeBuffered {ω : Type} (writer : Writer ω) (capacity : Nat) (s : ω) (models : Manifest) :
    ω × Except Refusal Unit :=
  let (b, outcome) := write (Buffered.writeAll writer capacity) (.start s) models
  (b.drop writer, outcome)

end Manifest

end Metamodel
