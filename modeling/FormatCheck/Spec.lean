import FormatCheck.FormatError

/-!
# Format specifiers

The mini-language after the colon of a field:
`[[fill]align][sign][#][0][width][grouping][.precision][type]`. A `Spec` keeps what was written;
two things depend on the value that is formatted and are decided later, by `resolveFill`: the
default alignment, and whether a bare `0` flag pads between sign and digits.

`Spec.print` writes a specifier back in its canonical form.
-/

namespace FormatCheck

inductive Align where
  | left
  | right
  | center
  /-- Padding goes between the sign and the digits. -/
  | afterSign
  deriving DecidableEq, Repr

inductive Sign where
  | always
  | negativeOnly
  | space
  deriving DecidableEq, Repr

inductive Grouping where
  | comma
  | underscore
  deriving DecidableEq, Repr

namespace Align

def toChar : Align → Char
  | left => '<'
  | right => '>'
  | center => '^'
  | afterSign => '='

def ofChar? (c : Char) : Option Align := [left, right, center, afterSign].find? (·.toChar = c)

end Align

namespace Sign

def toChar : Sign → Char
  | always => '+'
  | negativeOnly => '-'
  | space => ' '

def ofChar? (c : Char) : Option Sign := [always, negativeOnly, space].find? (·.toChar = c)

end Sign

namespace Grouping

/-- The separator written between groups. -/
def toChar : Grouping → Char
  | comma => ','
  | underscore => '_'

def ofChar? (c : Char) : Option Grouping := [comma, underscore].find? (·.toChar = c)

end Grouping

structure Spec where
  /-- The fill character, which only an alignment can bring. -/
  fill : Option Char := none
  align : Option Align := none
  sign : Option Sign := none
  alternate : Bool := false
  /-- A `0` before the width, where no fill was given. -/
  zeroPad : Bool := false
  width : Option Nat := none
  grouping : Option Grouping := none
  precision : Option Nat := none
  /-- The presentation type. -/
  code : Option Char := none
  deriving DecidableEq, Repr

namespace Spec

/-- Fill and alignment for a kind of value. A `0` flag fills with zeros, and where the default is to
the right it pads after the sign unless an alignment was given. -/
def resolveFill (spec : Spec) (default : Align) : Char × Align :=
  if spec.zeroPad then
    ('0', spec.align.getD (if default = .right then .afterSign else default))
  else
    (spec.fill.getD ' ', spec.align.getD default)

/-- The presentation types that take either separator. -/
def decimalCodes : List Char := ['d', 'e', 'f', 'g', 'E', 'G', '%', 'F']

/-- The presentation types whose digits are grouped by underscores alone. -/
def radixCodes : List Char := ['b', 'o', 'x', 'X']

/-- Refuses a separator that the presentation type, after defaulting, cannot carry. -/
def checkGrouping (spec : Spec) (code : Option Char) : Except FormatError Unit :=
  match spec.grouping, code with
  | some grouping, some c =>
    if c ∈ decimalCodes ∨ (c ∈ radixCodes ∧ grouping = .underscore) then .ok ()
    else .error (.groupingNotAllowed grouping.toChar c)
  | _, _ => .ok ()

/-! ## Canonical text -/

/-- The canonical text of a specifier: numbers without leading zeros. -/
def print (spec : Spec) : List Char :=
  (if spec.align.isSome then spec.fill.toList else [])
    ++ (spec.align.map Align.toChar).toList
    ++ (spec.sign.map Sign.toChar).toList
    ++ (if spec.alternate then ['#'] else [])
    ++ (if spec.zeroPad then ['0'] else [])
    ++ (spec.width.map Numeral.decimal).getD []
    ++ (spec.grouping.map Grouping.toChar).toList
    ++ (spec.precision.map fun p => '.' :: Numeral.decimal p).getD []
    ++ spec.code.toList

end Spec
end FormatCheck
