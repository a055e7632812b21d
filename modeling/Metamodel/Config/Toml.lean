import Metamodel.Config.Form
import Metamodel.Json.Token

/-!
# Configurations as TOML documents

A configuration is read from a TOML document without tables, since all settings stand at the top.
The value of a setting is a string of one of the four kinds or an array of strings; a document
with any other value is refused, as is one with dotted keys or with table headers, because no
setting can take what they give.

The document is first read as an object and then decoded like one, so that missing, unknown and
repeated keys are treated as there.
-/

namespace Metamodel.Config.Toml

/-! ## White space -/

/-- A blank within a line. -/
def isGap (c : Char) : Bool :=
  c = ' ' || c = '\t'

/-- A character that a comment or a string may hold: no control character but the tab. -/
def isPlain (c : Char) : Bool :=
  c = '\t' || (0x20 ≤ c.toNat && c ≠ '\x7f')

/-- What follows the end of a line, if the text starts with one. -/
def newLine? : List Char → Option (List Char)
  | '\n' :: rest => some rest
  | '\r' :: '\n' :: rest => some rest
  | _ => none

/-- What follows blanks within a line and a comment. -/
def skipComment (cs : List Char) : List Char :=
  match cs.dropWhile isGap with
  | '#' :: rest => rest.dropWhile isPlain
  | rest => rest

/-- What follows blanks, comments and ends of lines. The fuel bounds their number. -/
def skipLines : Nat → List Char → List Char
  | 0, cs => cs
  | fuel + 1, cs =>
    match newLine? (skipComment cs) with
    | some rest => skipLines fuel rest
    | none => skipComment cs

/-! ## Strings -/

/-- The character with a code, if it is one. -/
def character? (code : Nat) : Option Char :=
  if code.isValidChar then some (Char.ofNat code) else none

/-- The number that hexadecimal digits spell. -/
def hexNumber? (ds : List Char) : Option Nat :=
  ds.foldlM (fun n c => (Json.hexValue c).map (16 * n + ·)) 0

/-- The character that an escape names by `count` hexadecimal digits, and what follows. -/
def codeEscape (count : Nat) (cs : List Char) : Option (Char × List Char) := do
  if cs.length < count then none
  else
    let code ← hexNumber? (cs.take count)
    let c ← character? code
    return (c, cs.drop count)

/-- The character that an escape stands for, from what follows its backslash, and what follows. -/
def escape : List Char → Option (Char × List Char)
  | 'b' :: rest => some ('\x08', rest)
  | 't' :: rest => some ('\t', rest)
  | 'n' :: rest => some ('\n', rest)
  | 'f' :: rest => some ('\x0c', rest)
  | 'r' :: rest => some ('\r', rest)
  | 'e' :: rest => some ('\x1b', rest)
  | '\x22' :: rest => some ('\x22', rest)
  | '\x5c' :: rest => some ('\x5c', rest)
  | 'x' :: rest => codeEscape 2 rest
  | 'u' :: rest => codeEscape 4 rest
  | 'U' :: rest => codeEscape 8 rest
  | _ => none

/-- A string on one line, from what follows its opening quotation mark `quote`; a backslash starts
an escape if `escapes` holds. The fuel bounds the length. -/
def lineString (quote : Char) (escapes : Bool) : Nat → List Char → Option (List Char × List Char)
  | 0, _ => none
  | _ + 1, [] => none
  | fuel + 1, c :: rest =>
    if c = quote then some ([], rest)
    else if escapes && c = '\x5c' then do
      let (c, rest) ← escape rest
      let (text, rest) ← lineString quote escapes fuel rest
      return (c :: text, rest)
    else if isPlain c then do
      let (text, rest) ← lineString quote escapes fuel rest
      return (c :: text, rest)
    else none

/-- What follows blanks and ends of lines. -/
def skipBlankLines : List Char → List Char
  | [] => []
  | '\r' :: '\n' :: rest => skipBlankLines rest
  | c :: rest => if isGap c || c = '\n' then skipBlankLines rest else c :: rest

/-- What follows a backslash at the end of a line: all white space up to the next character. -/
def continuation? (cs : List Char) : Option (List Char) :=
  (newLine? (cs.dropWhile isGap)).map skipBlankLines

/-- A string on several lines, from what follows its opening quotation marks. Up to two quotation
marks before the three closing ones belong to the text. The fuel bounds the length. -/
def blockString (quote : Char) (escapes : Bool) : Nat → List Char → Option (List Char × List Char)
  | 0, _ => none
  | _ + 1, [] => none
  | fuel + 1, c :: rest =>
    let quotes := ((c :: rest).takeWhile (· = quote)).length
    if 3 ≤ quotes then
      let closing := min quotes 5
      some (List.replicate (closing - 3) quote, (c :: rest).drop closing)
    else if escapes && c = '\x5c' then
      match continuation? rest with
      | some rest => blockString quote escapes fuel rest
      | none => do
        let (c, rest) ← escape rest
        let (text, rest) ← blockString quote escapes fuel rest
        return (c :: text, rest)
    else if isPlain c || (newLine? (c :: rest)).isSome then do
      let (text, rest) ← blockString quote escapes fuel rest
      return (c :: text, rest)
    else none

/-- A string of any kind, and what follows it. An end of line right after three opening quotation
marks is not part of the text. -/
def string? (cs : List Char) : Option (String × List Char) :=
  let parsed :=
    match cs with
    | '\x22' :: '\x22' :: '\x22' :: rest =>
      blockString '\x22' true (cs.length) ((newLine? rest).getD rest)
    | '\x27' :: '\x27' :: '\x27' :: rest =>
      blockString '\x27' false (cs.length) ((newLine? rest).getD rest)
    | '\x22' :: rest => lineString '\x22' true cs.length rest
    | '\x27' :: rest => lineString '\x27' false cs.length rest
    | _ => none
  parsed.map fun (text, rest) => (String.ofList text, rest)

/-! ## Values and keys -/

/-- The items of an array from what follows its opening bracket or a comma, and what follows the
array. Lines may end between any two parts. The fuel bounds the number of items. -/
def items : Nat → List Char → Option (List String × List Char)
  | 0, _ => none
  | fuel + 1, cs =>
    match skipLines cs.length cs with
    | ']' :: rest => some ([], rest)
    | cs => do
      let (text, rest) ← string? cs
      match skipLines rest.length rest with
      | ',' :: rest =>
        let (texts, rest) ← items fuel rest
        return (text :: texts, rest)
      | ']' :: rest => some ([text], rest)
      | _ => none

/-- The value of a setting, and what follows it. -/
def value? (cs : List Char) : Option (Json × List Char) :=
  match cs with
  | '[' :: rest => (items cs.length rest).map fun (texts, rest) =>
      (.array (texts.map .string), rest)
  | _ => (string? cs).map fun (text, rest) => (.string text, rest)

/-- A character of a key without quotation marks. -/
def isBare (c : Char) : Bool :=
  c.isAlphanum || c = '_' || c = '-'

/-- A key and what follows it. -/
def key? (cs : List Char) : Option (String × List Char) :=
  match cs with
  | '\x22' :: rest => (lineString '\x22' true cs.length rest).map fun (k, rest) =>
      (String.ofList k, rest)
  | '\x27' :: rest => (lineString '\x27' false cs.length rest).map fun (k, rest) =>
      (String.ofList k, rest)
  | _ =>
    let bare := cs.takeWhile isBare
    if bare.isEmpty then none else some (String.ofList bare, cs.dropWhile isBare)

/-- A setting up to the end of its line. -/
def setting? (cs : List Char) : Option ((String × Json) × List Char) := do
  let (key, rest) ← key? cs
  match rest.dropWhile isGap with
  | '=' :: rest =>
    let (value, rest) ← value? (rest.dropWhile isGap)
    match skipComment rest with
    | [] => return ((key, value), [])
    | rest => do
      let rest ← newLine? rest
      return ((key, value), rest)
  | _ => none

/-- The settings of a document. The fuel bounds their number. -/
def settings : Nat → List Char → Option (List (String × Json))
  | 0, _ => none
  | fuel + 1, cs =>
    match skipLines cs.length cs with
    | [] => some []
    | cs => do
      let (setting, rest) ← setting? cs
      let others ← settings fuel rest
      return setting :: others

/-- The object of a document. A byte order mark in front is skipped. -/
def read (text : String) : Option Json :=
  let cs :=
    match text.toList with
    | '\ufeff' :: rest => rest
    | cs => cs
  (settings (cs.length + 1) cs).map .object

end Metamodel.Config.Toml

namespace Metamodel.Config

/-- The configuration of a TOML document, before it is validated. -/
def ofToml? (text : String) : Option Config :=
  (Toml.read text).bind (ofJson Json.nestingLimit)

/-- Why a document holds no configuration. -/
inductive DocumentError where
  /-- The document is not well formed, or a setting has the wrong name or kind of value. -/
  | malformed
  /-- The settings have problems. -/
  | invalid (problems : Problems)
deriving Repr

/-- The valid configuration of a TOML document. -/
def ofDocument (text : String) : Except DocumentError Config :=
  match ofToml? text with
  | none => .error .malformed
  | some config =>
    match config.validate with
    | .ok () => .ok config
    | .error problems => .error (.invalid problems)

end Metamodel.Config
