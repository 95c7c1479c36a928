import FormatCheck.Numeral

/-!
# Semantic types

The fixed set of value types a subject's dispatcher understands, the tag by which each is named on
a subject's command line, and the category that decides which values and which formats it is tested
with. `all` lists the types in the order of the test table.
-/

namespace FormatCheck

inductive SemanticType where
  | bool
  | char
  | unsignedChar
  | int8
  | int16
  | int32
  | int64
  | uint8
  | uint16
  | uint32
  | uint64
  | float32
  | float64
  | extended
  | charArray
  | string
  deriving DecidableEq, Repr

inductive Category where
  | bool
  | char
  | signedInt
  | unsignedInt
  | float
  | text
  deriving DecidableEq, Repr

/-- The integers from `least` to `greatest`, both included. -/
structure IntRange where
  least : Int
  greatest : Int
  deriving DecidableEq, Repr

namespace IntRange

/-- Two's-complement integers of `bits` bits. -/
def signed (bits : Nat) : IntRange := ⟨-(2 ^ (bits - 1)), 2 ^ (bits - 1) - 1⟩

/-- Unsigned integers of `bits` bits. -/
def unsigned (bits : Nat) : IntRange := ⟨0, 2 ^ bits - 1⟩

def contains (r : IntRange) (z : Int) : Bool := r.least ≤ z && z ≤ r.greatest

end IntRange

namespace SemanticType

/-- Every type, in table order. -/
def all : List SemanticType :=
  [bool, char, unsignedChar, int8, int16, int32, int64, uint8, uint16, uint32, uint64, float32,
    float64, extended, charArray, string]

/-- The name of a type on a subject's command line. -/
def tag : SemanticType → String
  | bool => "bool"
  | char => "char"
  | unsignedChar => "unsigned char"
  | int8 => "std::int8_t"
  | int16 => "std::int16_t"
  | int32 => "std::int32_t"
  | int64 => "std::int64_t"
  | uint8 => "std::uint8_t"
  | uint16 => "std::uint16_t"
  | uint32 => "std::uint32_t"
  | uint64 => "std::uint64_t"
  | float32 => "float"
  | float64 => "double"
  | extended => "long double"
  | charArray => "char[]"
  | string => "std::string"

/-- The type that a tag names. -/
def ofTag? (tag : String) : Option SemanticType := all.find? fun ty => ty.tag == tag

theorem ofTag?_tag (ty : SemanticType) : ofTag? ty.tag = some ty := by
  cases ty <;> decide

def category : SemanticType → Category
  | bool => .bool
  | char | unsignedChar => .char
  | int8 | int16 | int32 | int64 => .signedInt
  | uint8 | uint16 | uint32 | uint64 => .unsignedInt
  | float32 | float64 | extended => .float
  | charArray | string => .text

/-- The types whose literal is raw characters, so that a number is sent as one byte. -/
def isCharacterEncoded : SemanticType → Bool
  | char | unsignedChar | charArray => true
  | _ => false

def intRange? : SemanticType → Option IntRange
  | int8 => some (.signed 8)
  | int16 => some (.signed 16)
  | int32 => some (.signed 32)
  | int64 => some (.signed 64)
  | uint8 => some (.unsigned 8)
  | uint16 => some (.unsigned 16)
  | uint32 => some (.unsigned 32)
  | uint64 => some (.unsigned 64)
  | _ => none

/-- The place of a type in `all`. -/
def index (ty : SemanticType) : Nat := all.idxOf ty

end SemanticType
end FormatCheck
