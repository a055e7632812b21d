import Metamodel.Json.Basic

/-!
# JSON tokens

`Token.scan` cuts a text into tokens and drops the white space between them. It is strict: numbers
have no leading zeros and a digit on both sides of the point, control characters in strings are
escaped, and nothing else than a token or white space is accepted.
-/

namespace Metamodel.Json

/-- A token of JSON text. -/
inductive Token where
  /-- The character `[`. -/
  | openArray
  /-- The character `]`. -/
  | closeArray
  /-- The opening brace. -/
  | openObject
  /-- The closing brace. -/
  | closeObject
  /-- The character `,`. -/
  | comma
  /-- The character `:`. -/
  | colon
  /-- The word `null`. -/
  | null
  /-- One of the words `true` and `false`. -/
  | bool (value : Bool)
  /-- A number as it is spelled. -/
  | number (spelling : Numeral)
  /-- A string. -/
  | string (text : String)
  /-- A string with half a pair of surrogates. -/
  | unreadable
deriving DecidableEq, Repr

/-! ## Strings -/

/-- The value of a hexadecimal digit. -/
def hexValue (c : Char) : Option Nat :=
  if isDigit c then some (digitValue c)
  else if 'a'.toNat ≤ c.toNat ∧ c.toNat ≤ 'f'.toNat then some (c.toNat - 'a'.toNat + 10)
  else if 'A'.toNat ≤ c.toNat ∧ c.toNat ≤ 'F'.toNat then some (c.toNat - 'A'.toNat + 10)
  else none

/-- The number that four hexadecimal digits spell. -/
def hexValue4 (a b c d : Char) : Option Nat := do
  return 4096 * (← hexValue a) + 256 * (← hexValue b) + 16 * (← hexValue c) + (← hexValue d)

/-- The character that a short escape stands for. -/
def shortEscape (c : Char) : Option Char :=
  if c = '\x22' ∨ c = '\x5c' ∨ c = '/' then some c
  else if c = 'b' then some '\x08'
  else if c = 'f' then some '\x0c'
  else if c = 'n' then some '\n'
  else if c = 'r' then some '\r'
  else if c = 't' then some '\t'
  else none

/-- One code unit or character of a string. -/
inductive Piece where
  /-- A character that is spelled out or named by a short escape. -/
  | char (c : Char)
  /-- A code unit of UTF-16 that is given by its number. -/
  | unit (code : Nat)
deriving DecidableEq, Repr

/-- The pieces of a string up to its closing quotation mark, and what follows it. -/
def spanPieces : List Char → Option (List Piece × List Char)
  | [] => none
  | '\x22' :: rest => some ([], rest)
  | '\x5c' :: 'u' :: a :: b :: c :: d :: rest => do
    let code ← hexValue4 a b c d
    let (pieces, rest) ← spanPieces rest
    return (.unit code :: pieces, rest)
  | '\x5c' :: e :: rest => do
    let c ← shortEscape e
    let (pieces, rest) ← spanPieces rest
    return (.char c :: pieces, rest)
  | c :: rest =>
    if c.toNat < 0x20 ∨ c = '\x5c' then none
    else do
      let (pieces, rest) ← spanPieces rest
      return (.char c :: pieces, rest)

/-- A code unit that is the first half of a pair of surrogates. -/
def isHighSurrogate (code : Nat) : Bool :=
  0xD800 ≤ code && code < 0xDC00

/-- A code unit that is the second half of a pair of surrogates. -/
def isLowSurrogate (code : Nat) : Bool :=
  0xDC00 ≤ code && code < 0xE000

/-- The characters that the pieces of a string stand for; `none` if half a pair of surrogates is
among them. -/
def joinPieces : List Piece → Option (List Char)
  | [] => some []
  | .char c :: rest => (joinPieces rest).map (c :: ·)
  | .unit high :: .unit low :: rest =>
    if isHighSurrogate high then
      if isLowSurrogate low then
        (joinPieces rest).map
          (Char.ofNat (0x10000 + (high - 0xD800) * 0x400 + (low - 0xDC00)) :: ·)
      else none
    else if isLowSurrogate high then none
    else (joinPieces (.unit low :: rest)).map (Char.ofNat high :: ·)
  | .unit code :: rest =>
    if isHighSurrogate code || isLowSurrogate code then none
    else (joinPieces rest).map (Char.ofNat code :: ·)

/-- The token of a string, from what follows its opening quotation mark. -/
def spanString (cs : List Char) : Option (Token × List Char) :=
  (spanPieces cs).map fun (pieces, rest) =>
    match joinPieces pieces with
    | some text => (.string (String.ofList text), rest)
    | none => (.unreadable, rest)

/-! ## Numbers -/

/-- The digits before the point: a single zero, or digits that do not start with one. -/
def spanWhole : List Char → List Char × List Char
  | '0' :: rest => (['0'], rest)
  | cs => spanDigits cs

/-- The digits after a point, if there is one, and what follows; `none` if a point has no digits
after it. -/
def spanFraction : List Char → Option (List Char × List Char)
  | '.' :: cs =>
    let (ds, rest) := spanDigits cs
    if ds.isEmpty then none else some (ds, rest)
  | cs => some ([], cs)

/-- The token of a number. -/
def spanNumber (cs : List Char) : Option (Token × List Char) := do
  let (negative, cs) :=
    match cs with
    | '-' :: rest => (true, rest)
    | _ => (false, cs)
  let (whole, cs) := spanWhole cs
  if whole.isEmpty then none
  else
    let (fraction, cs) ← spanFraction cs
    let (exponent, cs) ← Numeral.spanExponent cs
    return (.number ⟨negative, whole, fraction, exponent⟩, cs)

/-! ## Tokens -/

/-- White space between tokens. -/
def isSpace (c : Char) : Bool :=
  c = ' ' || c = '\n' || c = '\r' || c = '\t'

/-- The token at the front of a text that does not start with white space. -/
def spanToken : List Char → Option (Token × List Char)
  | '[' :: rest => some (.openArray, rest)
  | ']' :: rest => some (.closeArray, rest)
  | '\x7b' :: rest => some (.openObject, rest)
  | '\x7d' :: rest => some (.closeObject, rest)
  | ',' :: rest => some (.comma, rest)
  | ':' :: rest => some (.colon, rest)
  | 'n' :: 'u' :: 'l' :: 'l' :: rest => some (.null, rest)
  | 't' :: 'r' :: 'u' :: 'e' :: rest => some (.bool true, rest)
  | 'f' :: 'a' :: 'l' :: 's' :: 'e' :: rest => some (.bool false, rest)
  | '\x22' :: rest => spanString rest
  | cs => spanNumber cs

/-- The tokens of a text; the fuel bounds their number and that of the white space between them. -/
def scanWithin : Nat → List Char → Option (List Token)
  | _, [] => some []
  | 0, _ :: _ => none
  | fuel + 1, c :: cs =>
    if isSpace c then scanWithin fuel cs
    else do
      let (token, rest) ← spanToken (c :: cs)
      let tokens ← scanWithin fuel rest
      return token :: tokens

/-- The tokens of a text. -/
def scan (cs : List Char) : Option (List Token) :=
  scanWithin cs.length cs

end Metamodel.Json
