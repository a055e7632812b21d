import Metamodel.Binary.Rounding

/-!
# The shortest decimal of a binary number

The decimal of a finite number is the shortest one that rounds to it, and the nearest to it of
those; a tie rule decides between two that are equally near. Every magnitude has an exact decimal
`exactDigits * 10 ^ -scale`. Cut after some digit, it leaves two neighbours on a coarser grid; the
coarsest grid with a neighbour that rounds to the number is chosen. The finest grid holds the exact
decimal itself, so the search always ends.
-/

namespace Metamodel

/-- A decimal `digits * 10 ^ exponent`. -/
structure Decimal where
  /-- The significant digits, as a number. -/
  digits : Nat
  /-- The power of ten by which they are scaled. -/
  exponent : Int
deriving DecidableEq, Repr

namespace Decimal

/-- The same decimal without trailing zeros among its digits. The fuel bounds their number. -/
def trimZerosAux : Nat → Decimal → Decimal
  | 0, d => d
  | fuel + 1, d =>
    if d.digits ≠ 0 ∧ d.digits % 10 = 0 then trimZerosAux fuel ⟨d.digits / 10, d.exponent + 1⟩
    else d

/-- The same decimal without trailing zeros among its digits. -/
def trimZeros (d : Decimal) : Decimal :=
  trimZerosAux (BinaryFormat.decimalLength d.digits) d

end Decimal

namespace BinaryFormat

variable (F : BinaryFormat)

/-- The digits of the exact decimal of a rank, at the exponent `-scale`. -/
def exactDigits (rank : Nat) : Nat :=
  F.units rank * Nat.pow 5 F.scale

/-- The decimal rounds to the rank. -/
def accepts (rank : Nat) (d : Decimal) : Bool :=
  F.nearestRankOfDecimal d.digits d.exponent == rank

/-- The neighbours of the exact decimal when its last `cut` digits are given up, the nearer one
first; if both are equally near, the one that the tie rule takes. -/
def neighbours (tie : TieRule) (rank cut : Nat) : List Decimal :=
  let exact := F.exactDigits rank
  let step := Nat.pow 10 cut
  let below := exact / step
  let exponent : Int := cut - F.scale
  let lower : Decimal := ⟨below, exponent⟩
  let upper : Decimal := ⟨below + 1, exponent⟩
  if roundNearest tie exact step = below then [lower, upper] else [upper, lower]

/-- The shortest decimal that rounds to the rank and gives up at most `cut` digits. -/
def shortestWithin (tie : TieRule) (rank : Nat) : Nat → Decimal
  | 0 => ⟨F.exactDigits rank, -F.scale⟩
  | cut + 1 =>
    match (F.neighbours tie rank (cut + 1)).find? (F.accepts rank) with
    | some d => d
    | none => shortestWithin tie rank cut

/-- The shortest decimal that rounds to the rank, and the nearest of those. -/
def shortest (tie : TieRule) (rank : Nat) : Decimal :=
  (F.shortestWithin tie rank (decimalLength (F.exactDigits rank) - 1)).trimZeros

end BinaryFormat

end Metamodel
