/-!
# Decimal numerals

A numeral is a number as it is spelled: a sign, the digits on both sides of the decimal point, and
an exponent. It denotes `significand * 10 ^ scale`. Spelling and value are kept apart, since two
numerals of one value may differ for a reader that tells integers and fractions apart.

* `digitsValue_append_singleton`: a further digit multiplies by ten and adds.
-/

namespace Metamodel

/-- A decimal digit. -/
def isDigit (c : Char) : Bool :=
  '0'.toNat ≤ c.toNat && c.toNat ≤ '9'.toNat

/-- The value of a decimal digit. -/
def digitValue (c : Char) : Nat :=
  c.toNat - '0'.toNat

/-- The number that a row of decimal digits spells; zero for the empty row. -/
def digitsValue (ds : List Char) : Nat :=
  ds.foldl (fun n c => 10 * n + digitValue c) 0

/-- A further digit multiplies by ten and adds. -/
theorem digitsValue_append_singleton (ds : List Char) (c : Char) :
    digitsValue (ds ++ [c]) = 10 * digitsValue ds + digitValue c := by
  simp [digitsValue, List.foldl_append]

/-- The digits at the front and what follows them. -/
def spanDigits (cs : List Char) : List Char × List Char :=
  (cs.takeWhile isDigit, cs.dropWhile isDigit)

/-- How the sign of an exponent is spelled. -/
inductive ExponentSign where
  /-- No sign. -/
  | bare
  /-- A plus sign. -/
  | plus
  /-- A minus sign. -/
  | minus
deriving DecidableEq, Repr

namespace ExponentSign

/-- The sign as it is written. -/
def text : ExponentSign → List Char
  | bare => []
  | plus => ['+']
  | minus => ['-']

/-- The sign at the front and what follows it. -/
def span : List Char → ExponentSign × List Char
  | '+' :: rest => (plus, rest)
  | '-' :: rest => (minus, rest)
  | cs => (bare, cs)

end ExponentSign

/-- A number as it is spelled in decimal. -/
structure Numeral where
  /-- There is a minus sign. -/
  negative : Bool
  /-- The digits before the point. -/
  whole : List Char
  /-- The digits after the point. -/
  fraction : List Char
  /-- The exponent, with its sign and its digits. -/
  exponent : Option (ExponentSign × List Char)
deriving DecidableEq, Repr

namespace Numeral

/-- The numeral of an integer. -/
def ofInt (n : Int) : Numeral where
  negative := n < 0
  whole := Nat.toDigits 10 n.natAbs
  fraction := []
  exponent := none

/-- The exponent as it is written. -/
def exponentText : Option (ExponentSign × List Char) → List Char
  | none => []
  | some (sign, ds) => 'e' :: (sign.text ++ ds)

/-- The numeral as it is written; the point is left out if no digit follows it. -/
def text (n : Numeral) : List Char :=
  (if n.negative then ['-'] else []) ++ n.whole ++
    (if n.fraction.isEmpty then [] else '.' :: n.fraction) ++ exponentText n.exponent

/-- The number that the exponent spells. -/
def exponentValue : Option (ExponentSign × List Char) → Int
  | none => 0
  | some (.minus, ds) => -digitsValue ds
  | some (_, ds) => digitsValue ds

/-- The digits on both sides of the point, as a number. -/
def significand (n : Numeral) : Nat :=
  digitsValue (n.whole ++ n.fraction)

/-- The power of ten by which the significand is scaled. -/
def scale (n : Numeral) : Int :=
  exponentValue n.exponent - n.fraction.length

/-- The numeral has neither a point nor an exponent. -/
def isWhole (n : Numeral) : Bool :=
  n.fraction.isEmpty && n.exponent.isNone

/-- An exponent at the front, which may be missing, and what follows it; `none` if the mark of an
exponent has no digits. -/
def spanExponent : List Char → Option (Option (ExponentSign × List Char) × List Char)
  | c :: cs =>
    if c = 'e' ∨ c = 'E' then
      let (sign, rest) := ExponentSign.span cs
      let (ds, rest) := spanDigits rest
      if ds.isEmpty then none else some (some (sign, ds), rest)
    else some (none, c :: cs)
  | [] => some (none, [])

end Numeral

end Metamodel
