import Metamodel.Declaration.Basic
import Metamodel.Diagnostic

/-!
# Events

What a run reports about itself while it goes on, in order. Every event has a level, a title and
fields. The first event of a round opens a span, in which the other events of the round lie.
-/

namespace Metamodel

/-- A part of a round. -/
inductive Phase where
  /-- Before and after a round. -/
  | idle
  /-- Components are turned into models. -/
  | scanningComponents
  /-- Property setters are turned into attributes. -/
  | scanningProperties
  /-- Attributes get their overloads. -/
  | synthesizingOverloads
  /-- Reset methods are added to models. -/
  | scanningResets
  /-- Models are handed over. -/
  | emitting
deriving DecidableEq, Repr

namespace Phase

/-- The phase that follows; the last one is followed by the first. -/
def next : Phase → Phase
  | idle => scanningComponents
  | scanningComponents => scanningProperties
  | scanningProperties => synthesizingOverloads
  | synthesizingOverloads => scanningResets
  | scanningResets => emitting
  | emitting => idle

/-- The phase as it is written in events. -/
def text : Phase → String
  | idle => "Idle"
  | scanningComponents => "ScanningComponents"
  | scanningProperties => "ScanningProperties"
  | synthesizingOverloads => "SynthesizingOverloads"
  | scanningResets => "ScanningResets"
  | emitting => "Emitting"

instance : ToString Phase where
  toString := text

end Phase

/-- How much an event matters. -/
inductive Level where
  /-- Every step. -/
  | trace
  /-- The course of a run. -/
  | debug
  /-- What a run did. -/
  | info
  /-- What went wrong. -/
  | warn
deriving DecidableEq, Repr

namespace Level

/-- The level as it is written in events. -/
def text : Level → String
  | trace => "TRACE"
  | debug => "DEBUG"
  | info => "INFO"
  | warn => "WARN"

/-- Events of the level are shown to the caller of a run. -/
def isShown (verbose : Bool) : Level → Bool
  | trace => false
  | debug => verbose
  | info => verbose
  | warn => true

end Level

/-- Something that happened in a run. -/
inductive Event where
  /-- A session starts its next round. -/
  | roundStarted (number : Nat)
  /-- A round is opened for a number of candidates. -/
  | roundOpened (candidates : Nat)
  /-- A phase is left and the next one is entered. -/
  | phaseChanged (left entered : Phase)
  /-- An attribute was attached to the model of a generated class. -/
  | attributeAttached (model : ClassRef) (field : String)
  /-- An overload was not derived, because its field is there already. -/
  | overloadSkipped (model : ClassRef) (field : String)
  /-- An overload was added to the model of a generated class. -/
  | overloadSynthesized (model : ClassRef) (field : String)
  /-- A round is over. -/
  | roundCompleted (models diagnostics : Nat)
  /-- A diagnostic was reported. -/
  | diagnosticReported (diagnostic : Diagnostic)
  /-- The round of a file is over. -/
  | fileProcessed (path : String) (models : Nat)
deriving DecidableEq, Repr

/-- The value of a field of an event. -/
inductive FieldValue where
  /-- A number. -/
  | count (n : Nat)
  /-- A text. -/
  | text (s : String)
deriving DecidableEq, Repr

namespace FieldValue

/-- The value as it is written. -/
def toText : FieldValue → String
  | count n => toString n
  | text s => s

end FieldValue

namespace Event

/-- The event opens a span. -/
def opensSpan : Event → Bool
  | roundOpened _ => true
  | _ => false

/-- How much the event matters. -/
def level : Event → Level
  | roundStarted _ => .debug
  | roundOpened _ => .info
  | phaseChanged _ _ => .debug
  | attributeAttached _ _ => .trace
  | overloadSkipped _ _ => .debug
  | overloadSynthesized _ _ => .trace
  | roundCompleted _ _ => .debug
  | diagnosticReported _ => .warn
  | fileProcessed _ _ => .info

/-- What happened, in words. -/
def title : Event → String
  | roundStarted _ => "starting round"
  | roundOpened _ => "round"
  | phaseChanged _ _ => "phase transition"
  | attributeAttached _ _ => "attached attribute"
  | overloadSkipped _ _ => "resource overload skipped, field already declared"
  | overloadSynthesized _ _ => "synthesized resource overload"
  | roundCompleted _ _ => "round complete"
  | diagnosticReported d => d.message
  | fileProcessed _ _ => "round processed"

/-- The details of the event. -/
def fields : Event → List (String × FieldValue)
  | roundStarted number => [("round", .count number)]
  | roundOpened candidates => [("candidates", .count candidates)]
  | phaseChanged left entered => [("from", .text left.text), ("to", .text entered.text)]
  | attributeAttached model field => [("model", .text (toString model)), ("field", .text field)]
  | overloadSkipped model field => [("model", .text (toString model)), ("field", .text field)]
  | overloadSynthesized model field => [("model", .text (toString model)), ("field", .text field)]
  | roundCompleted models diagnostics =>
    [("models", .count models), ("diagnostics", .count diagnostics)]
  | diagnosticReported d => [("decl", .text d.location.decl.text), ("class", .text d.category.text)]
  | fileProcessed path models => [("round", .text path), ("models", .count models)]

/-- The event in one line. -/
def line (e : Event) : String :=
  let details := e.fields.map fun (name, value) => " " ++ name ++ "=" ++ value.toText
  e.level.text ++ " " ++ e.title ++ String.join details

end Event

end Metamodel
