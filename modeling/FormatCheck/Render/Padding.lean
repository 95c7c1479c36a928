import FormatCheck.Spec

/-!
# Padding and digit grouping

The layout shared by all renderings. A text is padded to a number of characters. A number is laid
out as `left pad, sign, base mark, inner pad, grouped digits, point, remainder, right pad`, where
only the pad that the alignment names is used, or both outer ones for a centred number.

Zero-filled grouped numbers are special: their digits are themselves extended by zeros, grouped with
the rest, until the width is reached, and since a group never starts with a separator the result can
be one character wider.

A width counts as a signed 64-bit number in the layout of numbers, so that one from `2 ^ 63` on is
negative there and pads nothing. What is computed from the width is not bounded here: a layout in
64-bit numbers throughout has the same text as long as none of them leaves the range.
-/

namespace FormatCheck
namespace Render

/-! ## Texts -/

/-- Pads a text to `width` characters; centring puts the odd one on the right. -/
def padText (s : List Char) (width : Option Nat) (fill : Char) (align : Align) : List Char :=
  let padding := width.getD 0 - s.length
  let left := match align with
    | .right => padding
    | .center => padding / 2
    | .left | .afterSign => 0
  List.replicate left fill ++ s ++ List.replicate (padding - left) fill

/-! ## Grouping -/

/-- Groups digits given from the right, in groups of `size` (at least one). While `minWidth` is not
yet reached, missing digits are zeros; the separator before a further group counts too. -/
def groupReversed (separator : Char) (size : Nat) (digits : List Char) (minWidth : Int) :
    List Char :=
  let count := min (max size 1) (max digits.length (max minWidth 1).toNat)
  let chunk := digits.take count ++ List.replicate (count - digits.length) '0'
  let missing := minWidth - count
  if digits.length ≤ count ∧ missing ≤ 0 then chunk
  else chunk ++ separator :: groupReversed separator size (digits.drop count) (missing - 1)
termination_by digits.length + minWidth.toNat
decreasing_by
  rw [List.length_drop]
  omega

/-- Inserts separators every `size` digits from the right and extends the digits by grouped zeros to
at least `minWidth` characters. -/
def insertGrouping (separator : Char) (size : Nat) (digits : List Char) (minWidth : Int) :
    List Char :=
  (groupReversed separator size digits.reverse minWidth).reverse

/-! ## Numbers -/

structure NumberParts where
  negative : Bool
  /-- The mark of a base, such as `0x`. -/
  baseMark : List Char := []
  /-- The digits before the point, which are grouped. -/
  digits : List Char
  hasPoint : Bool := false
  /-- All that follows the point, or the digits where there is none. -/
  remainder : List Char := []
  deriving DecidableEq, Repr

/-- A width as the layout of numbers counts it; an absent one is below every length. -/
def signedWidth : Option Nat → Int
  | none => -1
  | some width => if width < 2 ^ 63 then width else (width : Int) - 2 ^ 64

/-- The sign that a number shows. -/
def signText (negative : Bool) (sign : Option Sign) : List Char :=
  if negative then ['-']
  else match sign with
    | some .always => ['+']
    | some .space => [' ']
    | some .negativeOnly | none => []

/-- What follows the digits before the point. -/
def NumberParts.tail (parts : NumberParts) : List Char :=
  (if parts.hasPoint then ['.'] else []) ++ parts.remainder

/-- The digits of a number with the separators that the specifier asks for. -/
def groupedDigits (parts : NumberParts) (spec : Spec) (groupSize : Nat) (otherLength : Nat) :
    List Char :=
  match spec.grouping with
  | none => parts.digits
  | some grouping =>
    if parts.digits = [] then []
    else
      let (fill, align) := spec.resolveFill .right
      let minWidth :=
        if fill = '0' ∧ align = .afterSign then signedWidth spec.width - otherLength else 0
      insertGrouping grouping.toChar groupSize parts.digits minWidth

def layoutNumber (parts : NumberParts) (spec : Spec) (groupSize : Nat) : List Char :=
  let (fill, align) := spec.resolveFill .right
  let sign := signText parts.negative spec.sign
  let otherLength := sign.length + parts.baseMark.length + parts.tail.length
  let grouped := groupedDigits parts spec groupSize otherLength
  let padding := (signedWidth spec.width - otherLength - grouped.length).toNat
  let (left, inner, right) := match align with
    | .left => (0, 0, padding)
    | .right => (padding, 0, 0)
    | .center => (padding / 2, 0, padding - padding / 2)
    | .afterSign => (0, padding, 0)
  List.replicate left fill ++ sign ++ parts.baseMark ++ List.replicate inner fill ++ grouped
    ++ parts.tail ++ List.replicate right fill

end Render
end FormatCheck
