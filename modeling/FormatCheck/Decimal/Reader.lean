import FormatCheck.Decimal

/-!
# Reading decimal numerals as floats

The grammar is a run of digits, a point with further digits, or both, then an optional exponent; a
numeral needs at least one digit in its mantissa and, after an exponent mark, in its exponent. The
value is rounded once, from the exact quotient. A numeral whose order of magnitude lies far outside
the format is decided from its order alone, so that no astronomically large power is computed.
-/

namespace FormatCheck
namespace Decimal

/-- A decimal numeral as written: `coefficient × 10 ^ exponent`. -/
structure Scientific where
  coefficient : Nat
  exponent : Int
  deriving DecidableEq, Repr

/-- The exponent part: nothing, or a mark, an optional sign and digits up to the end. -/
def readExponent? : List Char → Option Int
  | [] => some 0
  | c :: s => if c = 'e' ∨ c = 'E' then Numeral.integer? s else none

def readScientific? (s : List Char) : Option Scientific :=
  let whole := s.takeWhile Char.isDigit
  let rest := s.dropWhile Char.isDigit
  let (fraction, tail) := match rest with
    | '.' :: r => (r.takeWhile Char.isDigit, r.dropWhile Char.isDigit)
    | r => ([], r)
  -- Digits may be missing on one side of the point, but not on both.
  if whole = [] ∧ fraction = [] then none
  else (readExponent? tail).map fun e =>
    ⟨Numeral.readDecimal (whole ++ fraction), e - fraction.length⟩

/-- The order of magnitude beyond which a numeral is infinite, and below whose negation it is zero,
in every format no wider than double precision. -/
def orderBound : Nat := 400

/-- The magnitude nearest to `coefficient × 10 ^ exponent`. -/
def Scientific.magnitude (F : Format) (x : Scientific) : Magnitude F :=
  -- The exponent is unbounded, and its power of ten is only computed within the bound.
  let order : Int := (Numeral.digits 10 x.coefficient).length + x.exponent
  if x.coefficient = 0 ∨ order < -orderBound then .ofRank 0
  else if orderBound < order then .infinite
  else
    let (n, d) := shifted x.coefficient 1 x.exponent
    .ofRatio n d

/-- The float nearest to `±coefficient × 10 ^ exponent`. -/
def Scientific.toBinary (F : Format) (x : Scientific) (negative : Bool) : Binary F :=
  ⟨negative, x.magnitude F⟩

end Decimal
end FormatCheck
