import FormatCheck.Decimal

/-!
# Layout of decimal expansions

Where the decimal point goes, when an exponent is written, and which zeros are shown. The three
styles share one rule: choose between positional and exponent form, extend the digits by zeros to
the places asked for, set the point, and drop a point that nothing follows unless the alternate
form keeps it. Places are counted with unbounded numbers, as is a precision; in 64-bit numbers the
text is the same as long as these can hold the places.
-/

namespace FormatCheck
namespace Decimal

/-- How an expansion is written. -/
inductive Layout where
  /-- One digit before the point, `precision` after it, and an exponent. -/
  | exponent (precision : Nat)
  /-- Positional unless the number is very small or has more than `precision` integer digits. -/
  | general (precision : Nat)
  /-- All digits, positional from `10 ^ (-4)` up to below `10 ^ 16`. -/
  | shortest
  deriving DecidableEq, Repr

def digitChar (d : Fin 10) : Char := Numeral.digitChar d

def digitText (ds : List (Fin 10)) : List Char := ds.map digitChar

/-- Whether a style writes an exponent for a point at `point`. With `forcePoint` the general style
leaves room for the digit after the point that it must show. -/
def Layout.usesExponent (style : Layout) (forcePoint : Bool) (point : Int) : Bool :=
  match style with
  | .exponent _ => true
  | .general precision =>
    point ≤ -4 || (if forcePoint then (precision : Int) - 1 else precision) < point
  | .shortest => point ≤ -4 || 16 < point

/-- The number of digits a style shows at least. -/
def Layout.digitCount (style : Layout) (alternate : Bool) (ds : List (Fin 10)) : Nat :=
  match style with
  | .exponent precision => precision + 1
  | .general precision => if alternate then precision else ds.length
  | .shortest => ds.length

/-- Digits followed by zeros up to `count` of them. -/
def extend (count : Nat) (ds : List (Fin 10)) : List (Fin 10) :=
  ds ++ zeros (count - ds.length)

/-- Digits with the point set after the first `point` of them, or zeros between the point and the
first digit when `point` is not positive. -/
def setPoint (ds : List (Fin 10)) (point : Int) : List Char :=
  if point ≤ 0 then
    '0' :: '.' :: (List.replicate (-point).toNat '0' ++ digitText ds)
  else
    digitText (ds.take point.toNat) ++ '.' :: digitText (ds.drop point.toNat)

/-- A text without the point it ends in, which the alternate form keeps. -/
def dropFinalPoint (alternate : Bool) (s : List Char) : List Char :=
  if alternate = false ∧ s.getLast? = some '.' then s.dropLast else s

/-- The exponent mark, the sign, and at least two digits. -/
def exponentText (e : Int) : List Char :=
  'e' :: (if e < 0 then '-' else '+') :: Numeral.zeroPad 2 (Numeral.decimal e.natAbs)

/-- The text of an expansion in a style. `alternate` keeps a final point and, in the general style,
the trailing zeros; `forcePoint` shows at least one digit after the point in positional form. -/
def layout (x : Decimal) (style : Layout) (alternate forcePoint : Bool) : List Char :=
  let count := style.digitCount alternate x.digits
  if style.usesExponent forcePoint x.point then
    dropFinalPoint alternate (setPoint (extend (count.max 1) x.digits) 1)
      ++ exponentText (x.point - 1)
  else
    let shown := if forcePoint then x.point + 1 else x.point
    dropFinalPoint alternate (setPoint (extend (count.max shown.toNat) x.digits) x.point)

/-- The default text of a finite magnitude: its shortest digits, always with a point or an
exponent. -/
def shortestText {F : Format} (k : Fin F.overflowRank) : List Char :=
  layout (shortest .up k) .shortest false true

end Decimal
end FormatCheck
