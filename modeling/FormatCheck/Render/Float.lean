import FormatCheck.Render.Padding
import FormatCheck.Decimal.Layout

/-!
# Rendering floats

The body of a float is the text of its magnitude under a presentation type; the leading digits of
the body are its integer part, which grouping and zero filling work on, and all else follows them
unchanged. The sign of not-a-number is never shown.
-/

namespace FormatCheck
namespace Render

def floatCodes : List Char := ['e', 'E', 'f', 'F', 'g', 'G', 'n', '%']

def defaultPrecision : Nat := 6

/-- The text of a finite magnitude under a presentation type, in lower case. Without a type and a
precision it is the default text of the number. -/
def finiteBody (k : Fin Format.binary64.overflowRank) (spec : Spec) (code : Option Char) :
    List Char :=
  let n := Format.binary64.units k
  let d := Format.binary64.one
  let precision := spec.precision.getD defaultPrecision
  match code with
  | none =>
    match spec.precision with
    | none => (Decimal.shortest .up k).layout .shortest spec.alternate true
    | some p =>
      (Decimal.rounded n d (p.max 1)).layout (.general (p.max 1)) spec.alternate true
  | some c =>
    if c = 'e' ∨ c = 'E' then
      (Decimal.rounded n d (precision + 1)).layout (.exponent precision) spec.alternate false
    else if c = 'g' ∨ c = 'G' ∨ c = 'n' then
      (Decimal.rounded n d (precision.max 1)).layout (.general (precision.max 1)) spec.alternate
        false
    else
      let (whole, fraction) := Decimal.fixed n d precision
      whole ++ (if fraction = [] ∧ spec.alternate = false then [] else '.' :: fraction)

/-- The text of a magnitude under a presentation type, in lower case. -/
def floatBody (magnitude : Magnitude .binary64) (spec : Spec) (code : Option Char) : List Char :=
  match magnitude with
  | .nan => ['n', 'a', 'n']
  | .infinite => ['i', 'n', 'f']
  | .finite k => finiteBody k spec code

/-- Cuts the body of a float after its leading digits, and after the point that may follow them. -/
def partsOfBody (negative : Bool) (body : List Char) : NumberParts :=
  let digits := body.takeWhile Char.isDigit
  match body.dropWhile Char.isDigit with
  | '.' :: remainder => { negative, digits, hasPoint := true, remainder }
  | remainder => { negative, digits, remainder }

/-- Renders a float under an accepted presentation type; `%` shows a hundred times the value. -/
def formatFloatAs (x : Binary64) (spec : Spec) (code : Option Char) : List Char :=
  let percent := code = some '%'
  -- The scaled float may be infinite, so its text is only chosen now.
  let x := if percent then x.scaleBy 100 1 else x
  let body := floatBody x.magnitude spec code
  let body := if code ∈ [some 'E', some 'F', some 'G'] then body.map Char.toUpper else body
  let body := if percent then body ++ ['%'] else body
  layoutNumber (partsOfBody (x.negative && !x.isNaN) body) spec 3

def formatFloat (x : Binary64) (spec : Spec) : Except FormatError (List Char) := do
  spec.checkGrouping spec.code
  match spec.code with
  | none => .ok (formatFloatAs x spec none)
  | some code =>
    if code ∈ floatCodes then .ok (formatFloatAs x spec (some code))
    else .error (.unknownCode code .float)

end Render
end FormatCheck
