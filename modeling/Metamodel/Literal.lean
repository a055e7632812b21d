import Metamodel.Binary.Rounding
import Metamodel.Numeral

/-!
# Literals in source text

Readers for the values that a source author writes as text: integers, finite floating point
numbers and truth values. Each takes the whole text or refuses it; blanks are not skipped here.
-/

namespace Metamodel.Literal

/-- A sign at the front, as whether it is a minus sign, and what follows it. -/
def spanSign : List Char → Bool × List Char
  | '+' :: rest => (false, rest)
  | '-' :: rest => (true, rest)
  | cs => (false, cs)

/-- An integer: an optional sign and at least one digit. -/
def readInt (cs : List Char) : Option Int :=
  let (negative, ds) := spanSign cs
  if ds.isEmpty || !ds.all isDigit then none
  else some (if negative then -digitsValue ds else digitsValue ds)

/-- An integer of 32 bits. -/
def readInt32 (cs : List Char) : Option Int32 :=
  (readInt cs).bind fun n =>
    if Int32.minValue.toInt ≤ n ∧ n ≤ Int32.maxValue.toInt then some (Int32.ofInt n) else none

/-- A decimal: an optional sign, at least one digit on either side of an optional point, and an
optional exponent. -/
def readNumeral (cs : List Char) : Option Numeral :=
  let (negative, rest) := spanSign cs
  let (whole, rest) := spanDigits rest
  let (fraction, rest) :=
    match rest with
    | '.' :: rest => spanDigits rest
    | _ => ([], rest)
  if whole.isEmpty && fraction.isEmpty then none
  else
    match Numeral.spanExponent rest with
    | some (exponent, []) => some ⟨negative, whole, fraction, exponent⟩
    | _ => none

/-- The number nearest to a decimal, if it is finite. -/
def readBinary (F : BinaryFormat) (cs : List Char) : Option (Binary F) :=
  (readNumeral cs).bind fun n =>
    let x : Binary F := .ofDecimal n.negative n.significand n.scale
    if x.isFinite then some x else none

/-- A truth value. -/
def readBool (cs : List Char) : Option Bool :=
  if cs = "true".toList then some true
  else if cs = "false".toList then some false
  else none

end Metamodel.Literal
