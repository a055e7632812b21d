import Metamodel.Binary.Shortest
import Metamodel.Numeral

/-!
# Numerals of binary numbers

A finite number is spelled with the digits of its shortest decimal. A layout says which decimal
exponents are spelled in plain notation, with at least one digit on both sides of the point, and
how an exponent is spelled where plain notation ends. It also says which decimal is spelled if two
of the shortest are equally near.
-/

namespace Metamodel

/-- How the digits of a number are set out. The exponent of a number is that of its first digit. -/
structure NumberLayout where
  /-- The least exponent that is spelled in plain notation. -/
  leastPlain : Int
  /-- The greatest exponent that is spelled in plain notation. -/
  greatestPlain : Int
  /-- How an exponent that is not negative is signed. -/
  sign : ExponentSign
  /-- Which of two equally near decimals is spelled. -/
  tie : TieRule
deriving DecidableEq, Repr

namespace NumberLayout

/-- The digits before the point when the first of `ds` has the given exponent. -/
def plainWhole (ds : List Char) (exponent : Int) : List Char :=
  if exponent < 0 then ['0']
  else ds.take (exponent.toNat + 1) ++ List.replicate (exponent.toNat + 1 - ds.length) '0'

/-- The digits after the point when the first of `ds` has the given exponent; at least one. -/
def plainFraction (ds : List Char) (exponent : Int) : List Char :=
  if exponent < 0 then List.replicate (-exponent - 1).toNat '0' ++ ds
  else if ds.length ≤ exponent.toNat + 1 then ['0']
  else ds.drop (exponent.toNat + 1)

/-- The signed exponent behind the digits in scientific notation. -/
def exponentPart (layout : NumberLayout) (exponent : Int) : ExponentSign × List Char :=
  (if exponent < 0 then .minus else layout.sign, Nat.toDigits 10 exponent.natAbs)

/-- The numeral of a decimal with the given sign. -/
def numeral (layout : NumberLayout) (negative : Bool) (d : Decimal) : Numeral :=
  let ds := Nat.toDigits 10 d.digits
  let exponent : Int := if d.digits = 0 then 0 else d.exponent + (ds.length - 1 : Nat)
  if layout.leastPlain ≤ exponent ∧ exponent ≤ layout.greatestPlain then
    ⟨negative, plainWhole ds exponent, plainFraction ds exponent, none⟩
  else ⟨negative, ds.take 1, ds.drop 1, some (layout.exponentPart exponent)⟩

/-- The numeral of a finite number. -/
def ofBinary (layout : NumberLayout) {F : BinaryFormat} (x : Binary F) : Numeral :=
  layout.numeral x.negative (F.shortest layout.tie x.rank)

end NumberLayout

end Metamodel
