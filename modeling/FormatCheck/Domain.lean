import FormatCheck.Decimal.Reader
import FormatCheck.SemanticType
import FormatCheck.Value

/-!
# Value domains

The values each semantic type is tested with: the extremes of the type, zero (and negative zero for
floats), small and middling numbers of both signs and, for floats, both signs of not-a-number and
infinity. The domain of a wider signed type wraps that of the narrower one.
-/

namespace FormatCheck
namespace Domain

/-! ## Integers -/

def int8Values : List Int := [-0x7f, -23, -5, -1, 0, 1, 5, 23, 65, 0x7f]
def int16Values : List Int := [-0x7fff, -1000, -100] ++ int8Values ++ [100, 1000, 0x7fff]
def int32Values : List Int := [-0x7fffffff] ++ int16Values ++ [0x7fffffff]
def int64Values : List Int := [-0x7fffffffffffffff] ++ int32Values ++ [0x7fffffffffffffff]

def uint8Values : List Nat := [0, 1, 5, 23, 65, 0xff]
def uint16Values : List Nat := uint8Values ++ [100, 1000, 0xffff]
def uint32Values : List Nat := uint16Values ++ [0xffffffff]
def uint64Values : List Nat := uint32Values ++ [0xffffffffffffffff]

/-- A signed domain after the least value of its type. -/
def signed (bits : Nat) (values : List Int) : List Value :=
  ((IntRange.signed bits).least :: values).map fun z => .int (Int64.ofInt z)

def unsigned (values : List Nat) : List Value := values.map fun n => .uint (UInt64.ofNat n)

/-! ## Floats -/

/-- The double-precision number `±coefficient × 10 ^ exponent`. -/
def decimal (negative : Bool) (coefficient : Nat) (exponent : Int) : Binary64 :=
  (Decimal.Scientific.mk coefficient exponent).toBinary .binary64 negative

/-- Positive numbers with their negatives before them, largest first, and both zeros between. -/
def symmetric (positive : List Decimal.Scientific) : List Binary64 :=
  let all := ⟨0, 0⟩ :: positive
  (all.reverse.map fun x => decimal true x.coefficient x.exponent)
    ++ all.map fun x => decimal false x.coefficient x.exponent

def singleFinite : List Binary64 :=
  symmetric [⟨1, 0⟩, ⟨100, 0⟩, ⟨1000, 0⟩, ⟨12345, -1⟩, ⟨65535, 0⟩]

def doubleFinite : List Binary64 :=
  symmetric [⟨1, 0⟩, ⟨100, 0⟩, ⟨1000, 0⟩, ⟨123456789, -5⟩, ⟨4294967295, 0⟩]

/-- The greatest finite number of a format, in double precision. -/
def greatest (F : Format) : Magnitude .binary64 :=
  (Magnitude.ofRank (F.overflowRank - 1) : Magnitude F).convert

/-- The least normal number of a format, in double precision. -/
def leastNormal (F : Format) : Magnitude .binary64 :=
  (Magnitude.ofRank (2 ^ F.fractionBits) : Magnitude F).convert

def floats (F : Format) (finite : List Binary64) : List Value :=
  let special : List Binary64 :=
    [⟨false, leastNormal F⟩, ⟨false, greatest F⟩, ⟨false, .nan⟩, ⟨true, .nan⟩, ⟨true, .infinite⟩,
      ⟨false, .infinite⟩]
  (⟨true, greatest F⟩ :: finite ++ special).map .float

/-! ## Texts -/

def strings : List Value := ["", "a", " Foo\nBar\tBaz!\\ "].map .str
def chars : List Value := ["a", "B", " "].map .str

def values : SemanticType → List Value
  | .bool => [.bool true, .bool false]
  | .char | .unsignedChar => chars
  | .int8 => signed 8 int8Values
  | .int16 => signed 16 int16Values
  | .int32 => signed 32 int32Values
  | .int64 => signed 64 int64Values
  | .uint8 => unsigned uint8Values
  | .uint16 => unsigned uint16Values
  | .uint32 => unsigned uint32Values
  | .uint64 => unsigned uint64Values
  | .float32 => floats .binary32 singleFinite
  | .float64 | .extended => floats .binary64 doubleFinite
  | .charArray | .string => strings

end Domain
end FormatCheck
