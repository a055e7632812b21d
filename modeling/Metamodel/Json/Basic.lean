import Metamodel.Numeral

/-!
# JSON values

A value keeps what its text says as far as a decoder can tell: numbers as they are spelled, and
the members of an object in order and with repeated names.
-/

namespace Metamodel

/-- A JSON value. -/
inductive Json where
  /-- The value `null`. -/
  | null
  /-- A truth value. -/
  | bool (value : Bool)
  /-- A number as it is spelled. -/
  | number (spelling : Numeral)
  /-- A string. -/
  | string (text : String)
  /-- A list of values. -/
  | array (items : List Json)
  /-- A list of named values. -/
  | object (members : List (String × Json))
  /-- A string that an escape makes meaningless because it names one half of a pair of surrogates,
  or an object with such a string as a name. It can be skipped, and not be decoded. -/
  | unreadable
deriving Inhabited, Repr

namespace Json

mutual

/-- The number of arrays and objects around the most deeply nested part of a value. -/
def nesting : Json → Nat
  | array items => nestingOfItems items + 1
  | object members => nestingOfMembers members + 1
  | _ => 0

/-- The greatest nesting among the items of an array. -/
def nestingOfItems : List Json → Nat
  | [] => 0
  | item :: rest => max item.nesting (nestingOfItems rest)

/-- The greatest nesting among the values of the members of an object. -/
def nestingOfMembers : List (String × Json) → Nat
  | [] => 0
  | (_, value) :: rest => max value.nesting (nestingOfMembers rest)

end

/-- An object whose member is left out if there is no value for it. -/
def optionalMember (name : String) (value : Option Json) : List (String × Json) :=
  value.toList.map fun v => (name, v)

/-- A member that is left out if the list is empty. -/
def listMember (name : String) (items : List Json) : List (String × Json) :=
  if items.isEmpty then [] else [(name, array items)]

/-- A member that is left out if the text is empty. -/
def textMember (name text : String) : List (String × Json) :=
  if text.isEmpty then [] else [(name, string text)]

end Json

end Metamodel
