import FormatCheck.Render.Padding

/-!
# Pads of a number

A number is laid out between three pads: before its sign, behind the mark of its base and at its end.
`Pads.spread` says which of them an alignment uses, and `layoutNumber_eq_padded` that a layout has
no other, for whatever width is left to fill.
-/

namespace FormatCheck
namespace Render

/-- The lengths of the pads before the sign, behind the mark, and at the end. -/
structure Pads where
  left : Nat
  inner : Nat
  right : Nat

namespace Pads

def none : Pads := ⟨0, 0, 0⟩

/-- How an alignment spreads padding; in the middle the odd character goes to the right. -/
def spread (padding : Nat) : Align → Pads
  | .left => ⟨0, 0, padding⟩
  | .right => ⟨padding, 0, 0⟩
  | .center => ⟨padding / 2, 0, (padding + 1) / 2⟩
  | .afterSign => ⟨0, padding, 0⟩

theorem sum_spread (padding : Nat) (align : Align) :
    (spread padding align).left + (spread padding align).inner + (spread padding align).right =
      padding := by
  cases align with
  | center =>
      simp only [spread]
      omega
  | _ => simp [spread]

theorem spread_zero (align : Align) : spread 0 align = none := by
  cases align <;> rfl

end Pads

/-! ## Layouts with pads -/

namespace NumberParts

variable (parts : NumberParts) (spec : Spec)

/-- A number with pads of the fill character around its sign, its mark and these digits. -/
def padded (pads : Pads) (digits : List Char) : List Char :=
  List.replicate pads.left (spec.resolveFill .right).1 ++ signText parts.negative spec.sign
    ++ parts.baseMark ++ List.replicate pads.inner (spec.resolveFill .right).1 ++ digits
    ++ parts.tail ++ List.replicate pads.right (spec.resolveFill .right).1

/-- The number of characters around the digits. -/
def otherLength : Nat :=
  (signText parts.negative spec.sign).length + parts.baseMark.length + parts.tail.length

theorem length_padded (pads : Pads) (digits : List Char) :
    (parts.padded spec pads digits).length =
      pads.left + pads.inner + pads.right + (parts.otherLength spec + digits.length) := by
  simp only [padded, otherLength, List.length_append, List.length_replicate]
  omega

end NumberParts

/-- Only the pads that the alignment names are used. -/
theorem layoutNumber_eq_padded (parts : NumberParts) (spec : Spec) (groupSize : Nat) :
    layoutNumber parts spec groupSize =
      parts.padded spec
        (.spread
          (signedWidth spec.width - parts.otherLength spec
            - (groupedDigits parts spec groupSize (parts.otherLength spec)).length).toNat
          (spec.resolveFill .right).2)
        (groupedDigits parts spec groupSize (parts.otherLength spec)) := by
  unfold layoutNumber NumberParts.padded NumberParts.otherLength
  rcases spec.resolveFill .right with ⟨fill, align⟩
  cases align with
  | center =>
      have hhalf : ∀ n : Nat, n - n / 2 = (n + 1) / 2 := by omega
      simp only [hhalf]
      rfl
  | _ => rfl

/-! ## Widths -/

variable {width : Option Nat}

/-- A width of layouts is the width of the specifier, and an absent one is below every length. -/
theorem signedWidth_cases (hwidth : ∀ w ∈ width, w < 2 ^ 63) :
    signedWidth width = width.getD 0 ∨ signedWidth width = -1 ∧ width.getD 0 = 0 := by
  cases width with
  | none => exact Or.inr ⟨rfl, rfl⟩
  | some w =>
      have hlt : w < 2 ^ 63 := hwidth w rfl
      exact Or.inl (if_pos hlt)

/-- A width below `2 ^ 63` leaves the room of a natural number. -/
theorem toNat_signedWidth_sub (hwidth : ∀ w ∈ width, w < 2 ^ 63) (length : Nat) :
    (signedWidth width - length).toNat = width.getD 0 - length := by
  rcases signedWidth_cases hwidth with heq | ⟨heq, hzero⟩ <;> omega

end Render
end FormatCheck
