import FormatCheck.Render.Float

/-!
# Rendering integers

Integers and booleans take the integer presentation types, decimal by default; a floating-point type
renders the nearest float instead, and `c` the character of that code point.
-/

namespace FormatCheck
namespace Render

/-- How an integer is written in a base: the base, the mark that `#` adds, whether the digits are
upper case, and the size of a group. -/
structure Radix where
  base : Nat
  mark : List Char
  upper : Bool
  groupSize : Nat
  deriving DecidableEq, Repr

/-- The base of a presentation type, decimal for all that name no other. -/
def Radix.ofCode (code : Char) : Radix :=
  if code = 'b' then ⟨2, ['0', 'b'], false, 4⟩
  else if code = 'o' then ⟨8, ['0', 'o'], false, 4⟩
  else if code = 'x' then ⟨16, ['0', 'x'], false, 4⟩
  else if code = 'X' then ⟨16, ['0', 'X'], true, 4⟩
  else ⟨10, [], false, 3⟩

def Radix.digits (radix : Radix) (n : Nat) : List Char :=
  if radix.upper then Numeral.upperText radix.base n else Numeral.text radix.base n

/-- The presentation types that write an integer as one. -/
def integerCodes : List Char := ['b', 'c', 'd', 'o', 'x', 'X', 'n']

/-- The presentation types that turn an integer into a float. -/
def integerAsFloatCodes : List Char := ['e', 'E', 'f', 'F', 'g', 'G', '%']

/-- The character of a code point: not negative, in range and no surrogate. -/
def charOfCode? (value : Int) : Option Char :=
  if value < 0 then none
  else if h : value.toNat.isValidChar then some (Char.ofNatAux value.toNat h) else none

/-- Renders an integer as the character of that code point. -/
def formatCodePoint (value : Int) (spec : Spec) : Except FormatError (List Char) :=
  if spec.sign.isSome then .error .signWithChar
  else if spec.alternate then .error .alternateWithChar
  else match charOfCode? value with
    | none => .error .charOutOfRange
    | some c => .ok (layoutNumber { negative := false, digits := [], remainder := [c] } spec 3)

/-- Renders an integer in a base. A comma always groups by threes. -/
def formatRadix (value : Int) (spec : Spec) (radix : Radix) : List Char :=
  layoutNumber
    { negative := value < 0
      baseMark := if spec.alternate then radix.mark else []
      digits := radix.digits value.natAbs }
    spec
    (if spec.grouping = some .comma then 3 else radix.groupSize)

/-- Renders an integer, or a boolean as one. -/
def formatInteger (value : Int) (spec : Spec) (kind : ValueKind) :
    Except FormatError (List Char) := do
  let code := spec.code.getD 'd'
  spec.checkGrouping (some code)
  if code ∈ integerAsFloatCodes then
    .ok (formatFloatAs (Binary.ofInt value) spec (some code))
  else if code ∉ integerCodes then .error (.unknownCode code kind)
  else if spec.precision.isSome then .error .precisionOnInteger
  else if code = 'c' then formatCodePoint value spec
  else .ok (formatRadix value spec (Radix.ofCode code))

end Render
end FormatCheck
