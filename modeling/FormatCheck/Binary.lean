import FormatCheck.Numeral
import FormatCheck.Rounding

/-!
# Binary floating-point numbers

A format is given by the widths of its two fields. A magnitude is known by its **rank**, its place
among the non-negative finite numbers of the format in increasing order: rank `0` is zero, rank `1`
the least positive number, and the rank is also what the two fields spell when read as one number.
Its value is a whole number of *units*, the unit being the least positive number `2 ^ (-scale)`, so
every comparison and every rounding here is exact arithmetic on natural numbers.

`Format.nearest` is the one rounding of the module: reading a decimal, converting an integer,
multiplying, dividing and narrowing all state their exact result as a quotient and round it once.
The payload of a not-a-number is not kept, its sign is.
-/

namespace FormatCheck

/-- The widths of the fraction and exponent fields of a binary interchange format. -/
structure Format where
  fractionBits : Nat
  exponentBits : Nat
  deriving DecidableEq, Repr

namespace Format

def binary32 : Format := ⟨23, 8⟩

def binary64 : Format := ⟨52, 11⟩

variable (F : Format)

/-- The least positive number is `2 ^ (-scale)`. -/
def scale : Nat := 2 ^ (F.exponentBits - 1) - 2 + F.fractionBits

/-- The number of units in one. -/
def one : Nat := 2 ^ F.scale

/-- The first rank past the finite magnitudes, which spells infinity. -/
def overflowRank : Nat := (2 ^ F.exponentBits - 1) * 2 ^ F.fractionBits

/-- The magnitude of a rank, in units. -/
def units (rank : Nat) : Nat :=
  -- Ranks past the finite ones go on as if the exponent had no upper bound, which is what rounding
  -- near the top compares with.
  let exponent := rank / 2 ^ F.fractionBits
  if exponent = 0 then rank
  else (2 ^ F.fractionBits + rank % 2 ^ F.fractionBits) * 2 ^ (exponent - 1)

/-- The greatest rank whose magnitude is at most `q` units. -/
def rankBelow (q : Nat) : Nat :=
  let shift := q.log2 - F.fractionBits
  q / 2 ^ shift + shift * 2 ^ F.fractionBits

/-- The rank of the magnitude nearest to `n / d`; of two equally near the one with an even rank. -/
def nearest (n d : Nat) : Nat :=
  let v := n * F.one
  let k := F.rankBelow (v / d)
  let middle := (F.units k + F.units (k + 1)) * d
  if 2 * v < middle then k
  else if middle < 2 * v then k + 1
  -- A rank is even just if its significand is.
  else k + k % 2

end Format

/-- A magnitude of a format: a float without its sign. -/
inductive Magnitude (F : Format) where
  | finite (rank : Fin F.overflowRank)
  | infinite
  | nan
  deriving DecidableEq, Repr

namespace Magnitude

variable {F : Format}

/-- The magnitude of a rank, infinite from `overflowRank` on. -/
def ofRank (k : Nat) : Magnitude F :=
  if h : k < F.overflowRank then finite ⟨k, h⟩ else infinite

def ofRatio (n d : Nat) : Magnitude F := ofRank (F.nearest n d)

/-- A magnitude multiplied by `n / d` and rounded once. -/
def scaleBy (n d : Nat) : Magnitude F → Magnitude F
  | finite k => ofRatio (F.units k * n) (F.one * d)
  | m => m

/-- A magnitude in another format, rounded once. -/
def convert {G : Format} : Magnitude F → Magnitude G
  | finite k => ofRatio (F.units k) F.one
  | infinite => infinite
  | nan => nan

end Magnitude

/-- A float of a format: a sign, which zero and not-a-number have too, and a magnitude. -/
structure Binary (F : Format) where
  negative : Bool
  magnitude : Magnitude F
  deriving DecidableEq, Repr

abbrev Binary32 := Binary .binary32

abbrev Binary64 := Binary .binary64

namespace Binary

variable {F : Format}

def isNaN (x : Binary F) : Bool := x.magnitude == .nan

def negate (x : Binary F) : Binary F := { x with negative := !x.negative }

/-- A float multiplied by the non-negative `n / d` and rounded once. -/
def scaleBy (n d : Nat) (x : Binary F) : Binary F := { x with magnitude := x.magnitude.scaleBy n d }

/-- A float in another format, rounded once. -/
def convert {G : Format} (x : Binary F) : Binary G := ⟨x.negative, x.magnitude.convert⟩

/-- The float nearest to an integer. -/
def ofInt (z : Int) : Binary F := ⟨z < 0, .ofRatio z.natAbs 1⟩

/-- The positive float nearest to `n / d`. -/
def ofRatio (n d : Nat) : Binary F := ⟨false, .ofRatio n d⟩

/-- The rank of a magnitude among all bit patterns without a sign; not-a-number has one pattern. -/
def fields : Magnitude F → Nat
  | .finite k => k
  | .infinite => F.overflowRank
  | .nan => F.overflowRank + 2 ^ (F.fractionBits - 1)

/-- The float that a bit pattern spells: the sign bit, then the two fields. -/
def ofBits (F : Format) (bits : Nat) : Binary F :=
  let signBit := 2 ^ (F.fractionBits + F.exponentBits)
  let rank := bits % signBit
  ⟨signBit ≤ bits, if F.overflowRank < rank then .nan else .ofRank rank⟩

def toBits (x : Binary F) : Nat :=
  (if x.negative then 2 ^ (F.fractionBits + F.exponentBits) else 0) + fields x.magnitude

end Binary
end FormatCheck
