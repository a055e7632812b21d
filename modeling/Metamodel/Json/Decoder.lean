import Metamodel.Json.Number
import Metamodel.Json.Reader

/-!
# Decoding JSON values

A decoder for a type takes a value and the number of arrays and objects that may still be open
around its parts. A record is decoded from an object by the names of its fields, or from an array
by their order. Members of other names are skipped, whatever they hold, unless the record is
closed. A name may not be repeated.

* `fields?_array`: the items of an array are the values of the first fields.
-/

namespace Metamodel.Json

/-- How deeply arrays and objects may be nested in a text. -/
def nestingLimit : Nat := 127

/-- A decoder, which is given the number of arrays and objects that may still be opened. -/
abbrev Decoder (α : Type) := Nat → Json → Option α

/-- The value of a string. -/
def decodeString : Decoder String
  | _, string s => some s
  | _, _ => none

/-- A truth value. -/
def decodeBool : Decoder Bool
  | _, bool b => some b
  | _, _ => none

/-- An integer of 32 bits. -/
def decodeInt32 : Decoder Int32
  | _, number n => int32? n
  | _, _ => none

/-- A number of the format `F`. -/
def decodeBinary (F : BinaryFormat) : Decoder (Binary F)
  | _, number n => binary? F n
  | _, _ => none

/-- The value of a list, item by item. -/
def decodeList {α : Type} (decode : Decoder α) : Decoder (List α)
  | depth + 1, array items => items.mapM (decode depth)
  | _, _ => none

/-- A value that may be `null`. -/
def decodeOption {α : Type} (decode : Decoder α) : Decoder (Option α)
  | _, null => some none
  | depth, json => (decode depth json).map some

/-- A name out of a fixed list. The name stands alone, or is the only member of an object and has
the value `null`. -/
def decodeName {α : Type} (named : String → Option α) : Decoder α
  | _, string s => named s
  | _ + 1, object [(s, null)] => named s
  | _, _ => none

/-! ## Records -/

/-- The values of the fields that a record has, by name. -/
abbrev Fields := List (String × Json)

/-- The fields of a record in an object or an array. -/
def fields? (names : List String) : Json → Option Fields
  | array items => if items.length ≤ names.length then some (names.zip items) else none
  | object members =>
    let known := members.filter fun m => names.contains m.1
    if (known.map (·.1)).Nodup then some known else none
  | _ => none

/-- The items of an array are the values of the first fields. -/
theorem fields?_array {names : List String} {items : List Json}
    (h : items.length ≤ names.length) : fields? names (array items) = some (names.zip items) := by
  simp [fields?, h]

/-- Every member of the value is a field of the record. -/
def isClosed (names : List String) : Json → Bool
  | object members => members.all fun m => names.contains m.1
  | _ => true

/-- A record, from the depth that is left for its fields and from the fields. -/
def decodeRecord {α : Type} (names : List String) (build : Nat → Fields → Option α) : Decoder α
  | depth + 1, json => (json.fields? names).bind (build depth)
  | 0, _ => none

namespace Fields

/-- A field that has to be there. -/
def required {α : Type} (fields : Fields) (name : String) (decode : Json → Option α) : Option α :=
  (fields.lookup name).bind decode

/-- A field that takes a default if it is not there. -/
def withDefault {α : Type} (fields : Fields) (name : String) (default : α)
    (decode : Json → Option α) : Option α :=
  match fields.lookup name with
  | some json => decode json
  | none => some default

end Fields

/-! ## Values that are kept without being decoded -/

mutual

/-- The value has a meaning: its nesting is within the given depth, its strings are readable, and
its numbers are finite. -/
def isMeaningful : Nat → Json → Bool
  | _, unreadable => false
  | _, number n => (binary? .double n).isSome
  | depth + 1, array items => areMeaningfulItems depth items
  | depth + 1, object members => areMeaningfulMembers depth members
  | 0, array _ => false
  | 0, object _ => false
  | _, _ => true

/-- All items have a meaning. -/
def areMeaningfulItems (depth : Nat) : List Json → Bool
  | [] => true
  | item :: rest => isMeaningful depth item && areMeaningfulItems depth rest

/-- The values of all members have a meaning. -/
def areMeaningfulMembers (depth : Nat) : List (String × Json) → Bool
  | [] => true
  | (_, value) :: rest => isMeaningful depth value && areMeaningfulMembers depth rest

end

/-- The value of a text, decoded within the limit of nesting. -/
def decodeText {α : Type} (decode : Decoder α) (text : String) : Option α :=
  (read text).bind (decode nestingLimit)

end Metamodel.Json
