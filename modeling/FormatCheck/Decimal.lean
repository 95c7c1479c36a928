import FormatCheck.Numeral
import FormatCheck.Binary

/-!
# Decimal expansions of magnitudes

A `Decimal` is a digit list and the place of the decimal point: its value is
`0.d₁d₂d₃… × 10 ^ point`. Three ways lead from a magnitude to one: the exact expansion (a binary
fraction has finitely many decimal places), the expansion cut to a number of significant digits,
and the shortest one that reads back as the same float.

The search for the shortest asks, for one digit, two, three and so on, whether one of the two
neighbours of the value on that decimal grid is nearest to no other float. Of two that are, the
nearer wins, and `Tie` says which wins when they are equally near.
-/

namespace FormatCheck

/-- The digits of a non-negative number and its decimal point: `0.d₁d₂d₃… × 10 ^ point`. -/
structure Decimal where
  digits : List (Fin 10)
  point : Int
  deriving DecidableEq, Repr

/-- Which of two equally near candidates is taken. -/
inductive Tie where
  | up
  | even
  deriving DecidableEq, Repr

namespace Decimal

/-- Zero is one digit before the point. -/
def zero : Decimal := ⟨[0], 1⟩

/-- The digits of a number as decimal digits. -/
def decimalDigits (n : Nat) : List (Fin 10) := (Numeral.digits 10 n).map (Fin.ofNat 10)

/-- The digit zero so many times. -/
def zeros (count : Nat) : List (Fin 10) := List.replicate count 0

/-- A digit list without its trailing zeros. -/
def stripZeros (ds : List (Fin 10)) : List (Fin 10) := (ds.reverse.dropWhile (· = 0)).reverse

/-- The normal form of `coefficient × 10 ^ exponent`: no trailing zero, and `zero` for zero. -/
def ofScientific (coefficient : Nat) (exponent : Int) : Decimal :=
  if coefficient = 0 then zero
  else
    let ds := decimalDigits coefficient
    ⟨stripZeros ds, ds.length + exponent⟩

/-- The power of ten at or below the positive quotient `n / d`: `10 ^ e ≤ n / d < 10 ^ (e + 1)`. -/
def orderOf (n d : Nat) : Int :=
  -- Multiplying by a power of ten above `d` makes the quotient at least one, and then its integer
  -- part has the digits to count.
  let places := (Numeral.digits 10 d).length
  ((Numeral.digits 10 (n * 10 ^ places / d)).length : Int) - 1 - places

/-- The fraction `n / d × 10 ^ shift`, as a numerator and a denominator. -/
def shifted (n d : Nat) (shift : Int) : Nat × Nat :=
  (n * 10 ^ shift.toNat, d * 10 ^ (-shift).toNat)

/-- `n / d` rounded to `significant` digits (at least one), a half going to the even neighbour. -/
def rounded (n d significant : Nat) : Decimal :=
  if n = 0 then zero
  else
    let shift : Int := (significant.max 1 : Nat) - 1 - orderOf n d
    let (n', d') := shifted n d shift
    -- Rounding up to a power of ten gives a digit more, a zero that the normal form drops.
    ofScientific (Rounding.divHalfEven n' d') (-shift)

/-- `n / d` with exactly `places` digits after the point, a half going to the even neighbour: the
digits before the point and those after it. -/
def fixed (n d places : Nat) : List Char × List Char :=
  let q := Rounding.divHalfEven (n * 10 ^ places) d
  (Numeral.decimal (q / 10 ^ places),
    if places = 0 then [] else Numeral.zeroPad places (Numeral.decimal (q % 10 ^ places)))

variable {F : Format}

/-- The exact expansion of a finite magnitude: `2 ^ (-scale)` is `5 ^ scale × 10 ^ (-scale)`. -/
def exact (k : Fin F.overflowRank) : Decimal :=
  ofScientific (F.units k * 5 ^ F.scale) (-(F.scale : Int))

/-- The neighbour of the rank's value on the grid of `10 ^ (-shift)` that reads back as the rank,
as a multiple of the grid's step. -/
def gridPoint? (tie : Tie) (k : Fin F.overflowRank) (shift : Int) : Option Nat :=
  let (n, d) := shifted (F.units k) F.one shift
  let low := n / d
  let twice := 2 * (n % d)
  let readsBack (c : Nat) : Bool :=
    let (num, den) := shifted c 1 (-shift)
    F.nearest num den = k
  match readsBack low, readsBack (low + 1) with
  | true, true =>
    -- Of two points that read back the nearer is taken, and the tie decides in the middle.
    if twice < d then some low
    else if d < twice then some (low + 1)
    else match tie with
      | .up => some (low + 1)
      | .even => some (low + low % 2)
  | true, false => some low
  | false, true => some (low + 1)
  | false, false => none

/-- The first grid, from `digitCount` digits on, that has a point reading back as the rank; `tries`
grids are looked at before the exact expansion is taken. -/
def shortestFrom (tie : Tie) (k : Fin F.overflowRank) (order : Int) :
    (tries digitCount : Nat) → Decimal
  | 0, _ => exact k
  | tries + 1, digitCount =>
    let shift : Int := digitCount - 1 - order
    match gridPoint? tie k shift with
    | some c => ofScientific c (-shift)
    | none => shortestFrom tie k order tries (digitCount + 1)

/-- The fewest digits that read back as the rank, and of those the nearest to its value. Seventeen
digits always suffice in double precision, nine in single. -/
def shortest (tie : Tie) (k : Fin F.overflowRank) : Decimal :=
  if k.val = 0 then zero
  else shortestFrom tie k (orderOf (F.units k) F.one) 17 1

end Decimal
end FormatCheck
