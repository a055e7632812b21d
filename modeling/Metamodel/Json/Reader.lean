import Metamodel.Json.Token

/-!
# Reading JSON

A reader takes one token after another. Its state is what may come next, and the arrays and
objects that are open around that place, innermost first. A text is read if its tokens lead from
the start to a finished value with nothing open. The depth of nesting is not bounded here.

* `readTokens_nil`: the empty text holds no value.
-/

namespace Metamodel.Json

/-- An array or object that is not closed yet. Its finished parts stand in reverse order. -/
inductive Open where
  /-- An array with the items that are finished. -/
  | array (done : List Json)
  /-- An object with the members that are finished and the name of the next one. A name is `none`
  if it is unreadable; then the whole object is. -/
  | object (done : Option (List (String × Json))) (name : Option String)
deriving Repr

/-- What the next token may be. -/
inductive Expected where
  /-- A value. -/
  | value
  /-- The first item of an array, or its end. -/
  | itemOrEnd
  /-- The name of a member. -/
  | name (done : Option (List (String × Json)))
  /-- The name of the first member of an object, or its end. -/
  | nameOrEnd
  /-- The colon after the name of a member. -/
  | colon
  /-- A comma or an end, after a finished value. -/
  | after (value : Json)
deriving Repr

/-- A reader between two tokens. -/
structure Reader where
  /-- What the next token may be. -/
  expected : Expected
  /-- What is open around that place, innermost first. -/
  within : List Open
deriving Repr

namespace Reader

/-- The reader at the start of a text. -/
def start : Reader :=
  ⟨.value, []⟩

/-- The object with the given members, which stand in reverse order. -/
def finishObject : Option (List (String × Json)) → Json
  | some members => .object members.reverse
  | none => .unreadable

/-- One more member; an object with an unreadable name stays unreadable. -/
def addMember (done : Option (List (String × Json))) (name : Option String) (value : Json) :
    Option (List (String × Json)) :=
  match done, name with
  | some members, some name => some ((name, value) :: members)
  | _, _ => none

/-- A token where a value may start. -/
def startValue (within : List Open) : Token → Option Reader
  | .null => some ⟨.after .null, within⟩
  | .bool b => some ⟨.after (.bool b), within⟩
  | .number n => some ⟨.after (.number n), within⟩
  | .string s => some ⟨.after (.string s), within⟩
  | .unreadable => some ⟨.after .unreadable, within⟩
  | .openArray => some ⟨.itemOrEnd, .array [] :: within⟩
  | .openObject => some ⟨.nameOrEnd, .object (some []) none :: within⟩
  | _ => none

/-- A token where the name of a member may stand. -/
def startMember (done : Option (List (String × Json))) (within : List Open) :
    Token → Option Reader
  | .string s => some ⟨.colon, .object done (some s) :: within⟩
  | .unreadable => some ⟨.colon, .object none none :: within⟩
  | _ => none

/-- A token after a finished value. -/
def continueAfter (value : Json) : List Open → Token → Option Reader
  | .array done :: within, .comma => some ⟨.value, .array (value :: done) :: within⟩
  | .array done :: within, .closeArray => some ⟨.after (.array (value :: done).reverse), within⟩
  | .object done name :: within, .comma => some ⟨.name (addMember done name value), within⟩
  | .object done name :: within, .closeObject =>
    some ⟨.after (finishObject (addMember done name value)), within⟩
  | _, _ => none

/-- The reader after one more token; `none` if the token may not stand there. -/
def step (reader : Reader) (token : Token) : Option Reader :=
  match reader.expected, reader.within, token with
  | .value, within, token => startValue within token
  | .itemOrEnd, .array done :: within, .closeArray => some ⟨.after (.array done.reverse), within⟩
  | .itemOrEnd, within, token => startValue within token
  | .name done, within, token => startMember done within token
  | .nameOrEnd, .object done _ :: within, .closeObject =>
    some ⟨.after (finishObject done), within⟩
  | .nameOrEnd, .object done _ :: within, token => startMember done within token
  | .nameOrEnd, [], _ => none
  | .nameOrEnd, .array _ :: _, _ => none
  | .colon, within, .colon => some ⟨.value, within⟩
  | .colon, _, _ => none
  | .after value, within, token => continueAfter value within token

/-- The finished value, if nothing is open around it. -/
def result? (reader : Reader) : Option Json :=
  match reader.expected, reader.within with
  | .after value, [] => some value
  | _, _ => none

end Reader

/-- The value that a list of tokens spells. -/
def readTokens (tokens : List Token) : Option Json :=
  (tokens.foldlM Reader.step Reader.start).bind Reader.result?

/-- The value that a text spells. -/
def read (text : String) : Option Json :=
  (scan text.toList).bind readTokens

/-- No tokens spell no value. -/
theorem readTokens_nil : readTokens [] = none := rfl

end Metamodel.Json
