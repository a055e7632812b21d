import Metamodel.Json.Basic

/-!
# Writing JSON

Two layouts of one text: `compact` has no white space, and `pretty` puts every item and member on
a line of its own, indented by two blanks for each array and object around it. An array or object
without content is written without white space in both.

Quotation marks, backslashes and control characters are escaped in strings; all else is written as
it is.
-/

namespace Metamodel.Json

/-! ## Strings -/

/-- A hexadecimal digit in lower case. -/
def hexDigit (n : Nat) : Char :=
  if n < 10 then Char.ofNat ('0'.toNat + n) else Char.ofNat ('a'.toNat + (n - 10))

/-- A character inside quotation marks. -/
def escape (c : Char) : List Char :=
  if c = '\x22' then ['\x5c', '\x22']
  else if c = '\x5c' then ['\x5c', '\x5c']
  else if c = '\x08' then ['\x5c', 'b']
  else if c = '\t' then ['\x5c', 't']
  else if c = '\n' then ['\x5c', 'n']
  else if c = '\x0c' then ['\x5c', 'f']
  else if c = '\r' then ['\x5c', 'r']
  else if c.toNat < 0x20 then
    ['\x5c', 'u', '0', '0', hexDigit (c.toNat / 16), hexDigit (c.toNat % 16)]
  else [c]

/-- A text in quotation marks. -/
def quote (s : String) : List Char :=
  '\x22' :: (s.toList.flatMap escape ++ ['\x22'])

/-! ## Values -/

mutual

/-- The characters of a value without white space. -/
def compactChars : Json → List Char
  | null => ['n', 'u', 'l', 'l']
  | bool true => ['t', 'r', 'u', 'e']
  | bool false => ['f', 'a', 'l', 's', 'e']
  | number n => n.text
  | string s => quote s
  | array [] => ['[', ']']
  | array (item :: rest) => '[' :: (compactChars item ++ (compactItems rest ++ [']']))
  | object [] => ['\x7b', '\x7d']
  | object ((name, value) :: rest) =>
    '\x7b' :: (quote name ++ ':' :: (compactChars value ++ (compactMembers rest ++ ['\x7d'])))
  | unreadable => ['n', 'u', 'l', 'l']

/-- The items after the first one, each behind a comma. -/
def compactItems : List Json → List Char
  | [] => []
  | item :: rest => ',' :: (compactChars item ++ compactItems rest)

/-- The members after the first one, each behind a comma. -/
def compactMembers : List (String × Json) → List Char
  | [] => []
  | (name, value) :: rest =>
    ',' :: (quote name ++ ':' :: (compactChars value ++ compactMembers rest))

end

/-- The start of a line at a depth of indentation. -/
def newLine (depth : Nat) : List Char :=
  '\n' :: List.replicate (2 * depth) ' '

mutual

/-- The characters of a value that is indented to a depth. -/
def prettyChars (depth : Nat) : Json → List Char
  | null => ['n', 'u', 'l', 'l']
  | bool true => ['t', 'r', 'u', 'e']
  | bool false => ['f', 'a', 'l', 's', 'e']
  | number n => n.text
  | string s => quote s
  | array [] => ['[', ']']
  | array (item :: rest) =>
    '[' :: (newLine (depth + 1) ++ (prettyChars (depth + 1) item ++
      (prettyItems (depth + 1) rest ++ (newLine depth ++ [']']))))
  | object [] => ['\x7b', '\x7d']
  | object ((name, value) :: rest) =>
    '\x7b' :: (newLine (depth + 1) ++ (quote name ++ ':' :: ' ' ::
      (prettyChars (depth + 1) value ++
        (prettyMembers (depth + 1) rest ++ (newLine depth ++ ['\x7d'])))))
  | unreadable => ['n', 'u', 'l', 'l']

/-- The items after the first one, each behind a comma and on a new line. -/
def prettyItems (depth : Nat) : List Json → List Char
  | [] => []
  | item :: rest => ',' :: (newLine depth ++ (prettyChars depth item ++ prettyItems depth rest))

/-- The members after the first one, each behind a comma and on a new line. -/
def prettyMembers (depth : Nat) : List (String × Json) → List Char
  | [] => []
  | (name, value) :: rest =>
    ',' :: (newLine depth ++ (quote name ++ ':' :: ' ' ::
      (prettyChars depth value ++ prettyMembers depth rest)))

end

/-- The text of a value without white space. -/
def compact (json : Json) : String :=
  String.ofList json.compactChars

/-- The text of a value with every item and member on a line of its own. -/
def pretty (json : Json) : String :=
  String.ofList (prettyChars 0 json)

end Metamodel.Json
