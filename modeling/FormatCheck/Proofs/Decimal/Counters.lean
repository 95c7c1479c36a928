import FormatCheck.Proofs.Counter
import FormatCheck.Proofs.Decimal.Layout

/-!
# Layout of expansions in signed 64-bit numbers

`layout` reckons places with unbounded integers. `layoutCounted?` reckons them with signed 64-bit
numbers, to which a precision is turned as well, so that one of `2 ^ 63` or more is negative. It
writes a text in three pieces, by the places of the first digit, of the point and of the end, and is
nothing as soon as a computation leaves the range. `layoutCounted?_eq_layout` says that none does,
and that the text is the layout, where no more places are asked for than can be counted.
-/

namespace FormatCheck
namespace Decimal

open Counter

/-! ## Pieces -/

/-- A run of zeros, empty for a count below zero. -/
def zeroText? (count : Int) : Option (List Char) :=
  (counter? count).map fun count => List.replicate count.toNat '0'

/-- What is written before the digits. -/
def front? (point first : Int) : Option (List Char) :=
  if point ≤ 0 then do
    let whole ← zeroText? (point - first)
    let fraction ← zeroText? (-point)
    some (whole ++ '.' :: fraction)
  else zeroText? (-first)

/-- The digits, with the point where it stands among them. -/
def middle (ds : List (Fin 10)) (point : Int) : List Char :=
  if 0 < point ∧ point ≤ ds.length then
    digitText (ds.take point.toNat) ++ '.' :: digitText (ds.drop point.toNat)
  else digitText ds

/-- What is written behind the digits. -/
def back? (ds : List (Fin 10)) (point last : Int) : Option (List Char) :=
  if ds.length < point then do
    let whole ← zeroText? (point - ds.length)
    let fraction ← zeroText? (last - point)
    some (whole ++ '.' :: fraction)
  else zeroText? (last - ds.length)

/-- The digits with the point after `point` of them, and zeros up to the place `last`. -/
def pieces? (ds : List (Fin 10)) (point last : Int) : Option (List Char) := do
  let first ← counter? (if point ≤ 0 then point - 1 else 0)
  let span ← counter? (last - first)
  -- The room that is asked of the memory beforehand.
  let _ ← counter? (span + 8)
  let front ← front? point first
  let back ← back? ds point last
  some (front ++ middle ds point ++ back)

/-! ## Layout -/

def Layout.usesExponentCounted? (style : Layout) (forcePoint : Bool) (point : Int) : Option Bool :=
  match style with
  | .exponent _ => some true
  | .general precision => do
    let threshold ← counter? (if forcePoint then signed precision - 1 else signed precision)
    some (point ≤ -4 || threshold < point)
  | .shortest => some (point ≤ -4 || 16 < point)

def Layout.digitCountCounted? (style : Layout) (alternate : Bool) (ds : List (Fin 10)) :
    Option Int :=
  match style with
  | .exponent precision => counter? (signed precision + 1)
  | .general precision => counter? (if alternate then signed precision else ds.length)
  | .shortest => counter? ds.length

/-- The layout of an expansion, with counters for all places. -/
def layoutCounted? (x : Decimal) (style : Layout) (alternate forcePoint : Bool) :
    Option (List Char) := do
  let count ← style.digitCountCounted? alternate x.digits
  let usesExponent ← style.usesExponentCounted? forcePoint x.point
  if usesExponent then
    let exponent ← counter? (x.point - 1)
    let text ← pieces? x.digits 1 (max count 1)
    some (dropFinalPoint alternate text ++ exponentText exponent)
  else
    let shown ← counter? (if forcePoint then x.point + 1 else x.point)
    let text ← pieces? x.digits x.point (max count shown)
    some (dropFinalPoint alternate text)

/-- The number of digits that a style is given. -/
def Layout.precision : Layout → Nat
  | .exponent precision => precision
  | .general precision => precision
  | .shortest => 0

/-- Few enough digits, given and asked for, that a few places more can be counted. The point of an
expansion is a signed 32-bit number. -/
structure Layout.Countable (style : Layout) (x : Decimal) : Prop where
  point : -2 ^ 31 ≤ x.point ∧ x.point < 2 ^ 31
  digits : x.digits.length + 16 ≤ 2 ^ 63
  precision : style.precision + 16 ≤ 2 ^ 63

/-! ## Agreement -/

variable {x : Decimal} {style : Layout} {ds : List (Fin 10)}

theorem digitText_zeros (count : Nat) : digitText (zeros count) = List.replicate count '0' :=
  List.map_replicate

theorem zeroText?_eq {z : Int} (hz : Fits z) {count : Nat} (hcount : z.toNat = count) :
    zeroText? z = some (digitText (zeros count)) := by
  rw [zeroText?, counter?_eq_some hz, Option.map_some, hcount, digitText_zeros]

/-- The pieces make up the digits with zeros on either side and the point set. -/
def PiecesFit (ds : List (Fin 10)) (point first : Int) (count : Nat) : Prop :=
  ∃ front back : List Char, front? point first = some front ∧ back? ds point count = some back ∧
    front ++ middle ds point ++ back = setPoint (extend count ds) point

section PiecesFit

variable {point : Int} {count : Nat} (hlength : ds.length < 2 ^ 63) (hcount : count < 2 ^ 63)

include hlength hcount

/-- A zero stands before the point, and zeros between it and the digits. -/
theorem piecesFit_of_nonpos (hpoint : point ≤ 0) (hlow : -2 ^ 31 ≤ point) :
    PiecesFit ds point (point - 1) count := by
  have hbefore : Fits (point - (point - 1)) := ⟨by omega, by omega⟩
  have hone : (point - (point - 1)).toNat = 1 := by omega
  have hnegative : Fits (-point) := ⟨by omega, by omega⟩
  have hrest : Fits (count - ds.length) := ⟨by omega, by omega⟩
  have hbehind : (count - ds.length : Int).toNat = count - ds.length := by omega
  unfold PiecesFit front? middle back? setPoint extend
  rw [if_pos hpoint, if_neg (by omega : ¬(ds.length : Int) < point),
    if_neg (by omega : ¬(0 < point ∧ point ≤ ds.length)), if_pos hpoint,
    zeroText?_eq hbefore hone, zeroText?_eq hnegative rfl, zeroText?_eq hrest hbehind]
  refine ⟨_, _, rfl, rfl, ?_⟩
  rw [digitText_append, ← digitText_zeros, List.append_assoc]
  rfl

/-- The point stands among the digits. -/
theorem piecesFit_of_le_length (hpos : 0 < point) (hin : point ≤ ds.length) :
    PiecesFit ds point 0 count := by
  have hnone : Fits (-0) := by decide
  have hrest : Fits (count - ds.length) := ⟨by omega, by omega⟩
  have hbehind : (count - ds.length : Int).toNat = count - ds.length := by omega
  unfold PiecesFit front? middle back? setPoint extend
  rw [if_neg (not_le.mpr hpos), if_neg (not_le.mpr hpos), zeroText?_eq hnone rfl,
    if_pos (And.intro hpos hin), if_neg (not_lt.mpr hin), zeroText?_eq hrest hbehind]
  refine ⟨_, _, rfl, rfl, ?_⟩
  rw [List.take_append_of_le_length (by omega), List.drop_append_of_le_length (by omega),
    digitText_append]
  simp [digitText_zeros]

/-- Zeros stand between the digits and the point. -/
theorem piecesFit_of_length_lt (hpos : 0 < point) (hout : ds.length < point)
    (hpoint : point ≤ count) : PiecesFit ds point 0 count := by
  have hnone : Fits (-0) := by decide
  have hreach : Fits (point - ds.length) := ⟨by omega, by omega⟩
  have hafter : Fits (count - point) := ⟨by omega, by omega⟩
  have hreached : (point - ds.length).toNat = point.toNat - ds.length := by omega
  have hleft : (count - point).toNat = count - point.toNat := by omega
  have hcut : count - ds.length = (point.toNat - ds.length) + (count - point.toNat) := by omega
  have hsplit : ds ++ zeros (count - ds.length) =
      ds ++ zeros (point.toNat - ds.length) ++ zeros (count - point.toNat) := by
    rw [hcut, zeros_add, List.append_assoc]
  have hupto : (ds ++ zeros (point.toNat - ds.length)).length = point.toNat := by
    rw [List.length_append, length_zeros]
    omega
  unfold PiecesFit front? middle back? setPoint extend
  rw [if_neg (not_le.mpr hpos), if_neg (not_le.mpr hpos), zeroText?_eq hnone rfl,
    if_neg (by omega : ¬(0 < point ∧ point ≤ ds.length)), if_pos hout,
    zeroText?_eq hreach hreached, zeroText?_eq hafter hleft]
  refine ⟨_, _, rfl, rfl, ?_⟩
  rw [hsplit, List.take_left' hupto, List.drop_left' hupto, digitText_append]
  simp [digitText_zeros]

/-- Where the first place is the one before the digits, the pieces fit. -/
theorem piecesFit (hpoint : point ≤ count) (hlow : -2 ^ 31 ≤ point) :
    PiecesFit ds point (if point ≤ 0 then point - 1 else 0) count := by
  by_cases hle : point ≤ 0
  · rw [if_pos hle]
    exact piecesFit_of_nonpos hlength hcount hle hlow
  · rw [if_neg hle]
    rcases lt_or_ge (ds.length : Int) point with hout | hin
    · exact piecesFit_of_length_lt hlength hcount (not_le.mp hle) hout hpoint
    · exact piecesFit_of_le_length hlength hcount (not_le.mp hle) hin

end PiecesFit

theorem pieces?_eq {point : Int} {count : Nat} (hpoint : point ≤ count) (hlow : -4 < point)
    (hlength : ds.length < 2 ^ 63) (hcount : count + 12 < 2 ^ 63) :
    pieces? ds point count = some (setPoint (extend count ds) point) := by
  have hpieces := piecesFit hlength (by omega) hpoint (by omega)
  unfold pieces?
  generalize hfirst : (if point ≤ 0 then point - 1 else 0) = first at hpieces ⊢
  have hbounds : -4 ≤ first ∧ first ≤ 0 := by
    split at hfirst <;> omega
  have hfits : Fits first := ⟨by omega, by omega⟩
  have hspan : Fits (count - first) := ⟨by omega, by omega⟩
  have hroom : Fits (count - first + 8) := ⟨by omega, by omega⟩
  rcases hpieces with ⟨front, back, hfront, hback, htext⟩
  simp only [Option.bind_eq_bind, Option.bind_some, counter?_eq_some hfits,
    counter?_eq_some hspan, counter?_eq_some hroom, hfront, hback, htext]

theorem Layout.Countable.digitCount_le (h : style.Countable x) (alternate : Bool) :
    style.digitCount alternate x.digits + 15 ≤ 2 ^ 63 := by
  have hdigits := h.digits
  have hprecision := h.precision
  cases style with
  | exponent precision => exact hprecision
  | general precision =>
      cases alternate with
      | false => exact Nat.le_of_succ_le hdigits
      | true => exact Nat.le_of_succ_le hprecision
  | shortest => exact Nat.le_of_succ_le hdigits

theorem Layout.Countable.digitCountCounted?_eq (h : style.Countable x) (alternate : Bool) :
    style.digitCountCounted? alternate x.digits = some ↑(style.digitCount alternate x.digits) := by
  have hprecision := h.precision
  have hcount := h.digitCount_le alternate
  have hfits : Fits (style.digitCount alternate x.digits) := ⟨by omega, by omega⟩
  have hsigned : signed style.precision = style.precision := signed_of_lt (by omega)
  rw [← counter?_eq_some hfits]
  cases style with
  | exponent precision =>
      rw [digitCountCounted?, show signed precision = precision from hsigned]
      rfl
  | general precision =>
      rw [digitCountCounted?, show signed precision = precision from hsigned]
      cases alternate <;> rfl
  | shortest => rfl

theorem Layout.Countable.usesExponentCounted?_eq (h : style.Countable x) (forcePoint : Bool) :
    style.usesExponentCounted? forcePoint x.point = some (style.usesExponent forcePoint x.point) := by
  have hprecision := h.precision
  cases style with
  | exponent precision => rfl
  | general precision =>
      have hle : precision + 16 ≤ 2 ^ 63 := hprecision
      have hfits : Fits (if forcePoint then (precision : Int) - 1 else precision) := by
        unfold Fits
        split <;> omega
      rw [usesExponentCounted?, signed_of_lt (by omega), counter?_eq_some hfits]
      rfl
  | shortest => rfl

/-- Without an exponent there are few zeros in front. -/
theorem Layout.lt_point_of_not_usesExponent {forcePoint : Bool} {point : Int}
    (h : style.usesExponent forcePoint point = false) : -4 < point := by
  cases style with
  | exponent precision => cases h
  | general precision =>
      rw [usesExponent, Bool.or_eq_false_iff, decide_eq_false_iff_not] at h
      exact not_le.mp h.1
  | shortest =>
      rw [usesExponent, Bool.or_eq_false_iff, decide_eq_false_iff_not] at h
      exact not_le.mp h.1

/-- What is shown of an expansion whose places can be counted is computed in range. -/
theorem layoutCounted?_eq_layout (h : style.Countable x) (alternate forcePoint : Bool) :
    layoutCounted? x style alternate forcePoint = some (layout x style alternate forcePoint) := by
  have hcount := h.digitCount_le alternate
  have hdigits := h.digits
  rcases h.point with ⟨hlow, hhigh⟩
  unfold layoutCounted? layout
  rw [h.digitCountCounted?_eq, h.usesExponentCounted?_eq]
  generalize style.digitCount alternate x.digits = asked at hcount
  simp only [Option.bind_eq_bind, Option.bind_some]
  cases huses : style.usesExponent forcePoint x.point with
  | true =>
      have hexponent : Fits (x.point - 1) := ⟨by omega, by omega⟩
      have hlast : max (asked : Int) 1 = (asked.max 1 : Nat) := by
        show _ = ((max asked 1 : Nat) : Int)
        omega
      rw [if_pos rfl, if_pos rfl, counter?_eq_some hexponent, hlast,
        pieces?_eq (by omega) (by omega) (by omega) (by omega)]
      rfl
  | false =>
      have hpoint := Layout.lt_point_of_not_usesExponent huses
      rw [if_neg Bool.false_ne_true, if_neg Bool.false_ne_true]
      generalize hshown : (if forcePoint then x.point + 1 else x.point) = shown
      have hle : x.point ≤ shown ∧ shown ≤ x.point + 1 := by
        split at hshown <;> omega
      have hfits : Fits shown := ⟨by omega, by omega⟩
      have hlast : max (asked : Int) shown = (asked.max shown.toNat : Nat) := by
        show _ = ((max asked shown.toNat : Nat) : Int)
        omega
      rw [counter?_eq_some hfits, Option.bind_some, hlast,
        pieces?_eq (by omega) hpoint (by omega) (by omega)]
      rfl

/-- A precision that turns negative asks for an exponent, although the point is within it. -/
example : layoutCounted? ⟨[1], 1⟩ (.general (2 ^ 64 - 1)) false false = some "1e+00".toList ∧
    layout ⟨[1], 1⟩ (.general (2 ^ 64 - 1)) false false = "1".toList := by
  decide +kernel

end Decimal
end FormatCheck
