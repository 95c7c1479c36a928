import FormatCheck.Proofs.Decimal.Bounds
import FormatCheck.Render.Float

/-!
# The shape of a layout

What stands where in the text of a normal expansion: how many digits are shown, when an exponent is
written, and which zeros hold places. The shortest style and the general style outside its alternate
form show the digits and nothing but placeholders (`Placed`); exponents and the alternate form show
a number of digits that the precision fixes. `layout_shape` collects what each style promises of an
expansion that has no more digits than it shows, and `finiteBody_eq_layout` says that the renderer
lays out no other.
-/

namespace FormatCheck
namespace Decimal

variable {x : Decimal} {w : Written}

/-! ## Marks in a numeral -/

/-- The expansion has no more digits than the style shows of it. -/
def Layout.Fits (style : Layout) (x : Decimal) : Prop :=
  match style with
  | .exponent precision => x.digits.length ≤ precision + 1
  | .general precision => 1 ≤ precision ∧ x.digits.length ≤ precision
  | .shortest => True

/-- What is rendered under a type with an exponent, or without a type, is the layout of a normal
expansion that fits its style, within a few places of the precision. -/
theorem finiteBody_eq_layout (k : Fin Format.binary64.overflowRank) (spec : Spec)
    {code : Option Char} (hcode : ∀ c ∈ code, (c = 'e' ∨ c = 'E') ∨ c = 'g' ∨ c = 'G' ∨ c = 'n') :
    ∃ (x : Decimal) (style : Layout) (forcePoint : Bool), x.Normal ∧ style.Fits x ∧
      x.Within (spec.precision.getD Render.defaultPrecision + 3000) ∧
      style.precision ≤ spec.precision.getD Render.defaultPrecision + 1 ∧
      Render.finiteBody k spec code = layout x style spec.alternate forcePoint := by
  have hone : 0 < Format.binary64.one := Nat.two_pow_pos _
  have hlength (significant : Nat) (hpos : 1 ≤ significant) :
      (rounded (Format.binary64.units k) Format.binary64.one significant).digits.length ≤
        significant := by
    have hle := length_digits_rounded_le (Format.binary64.units k) hone significant
    rwa [max_eq_left hpos] at hle
  have hwithin := within_rounded_binary64 k
  cases code with
  | none =>
      cases hprecision : spec.precision with
      | none =>
          refine ⟨_, .shortest, true, normal_shortest .up k, trivial,
            (within_shortest_binary64 .up k).mono (Nat.le_add_left _ _), Nat.zero_le _, ?_⟩
          simp only [Render.finiteBody, hprecision]
      | some p =>
          have hpos : 1 ≤ max p 1 := le_max_right p 1
          have hle : max p 1 ≤ p + 1 := by omega
          refine ⟨_, .general (max p 1), true, normal_rounded _ _ _, ⟨hpos, hlength _ hpos⟩,
            (hwithin (max p 1)).mono ?_, hle, ?_⟩
          · rw [Option.getD_some]
            omega
          · simp only [Render.finiteBody, hprecision]
  | some c =>
      generalize hprecision : spec.precision.getD Render.defaultPrecision = p
      rcases hcode c rfl with hexponent | hgeneral
      · refine ⟨_, .exponent p, false, normal_rounded _ _ _, hlength (p + 1) (by omega),
          (hwithin (p + 1)).mono (by omega), Nat.le_succ p, ?_⟩
        simp only [Render.finiteBody, if_pos hexponent, hprecision]
      · have hother : ¬(c = 'e' ∨ c = 'E') := by
          rcases hgeneral with rfl | rfl | rfl <;> decide
        have hpos : 1 ≤ max p 1 := le_max_right p 1
        have hle : max p 1 ≤ p + 1 := by omega
        refine ⟨_, .general (max p 1), false, normal_rounded _ _ _, ⟨hpos, hlength _ hpos⟩,
          (hwithin (max p 1)).mono (by omega), hle, ?_⟩
        simp only [Render.finiteBody, if_neg hother, if_pos hgeneral, hprecision]

/-- So the renderer computes all places in range, up to the greatest precision that it takes. -/
theorem exists_layoutCounted_finiteBody (k : Fin Format.binary64.overflowRank) {spec : Spec}
    (hprecision : ∀ p ∈ spec.precision, p ≤ 65535) {code : Option Char}
    (hcode : ∀ c ∈ code, (c = 'e' ∨ c = 'E') ∨ c = 'g' ∨ c = 'G' ∨ c = 'n') :
    ∃ (x : Decimal) (style : Layout) (forcePoint : Bool), x.Normal ∧ style.Fits x ∧
      style.Countable x ∧
      layoutCounted? x style spec.alternate forcePoint = some (Render.finiteBody k spec code) := by
  have hle : spec.precision.getD Render.defaultPrecision ≤ 65535 := by
    cases h : spec.precision with
    | none => decide
    | some p => exact hprecision p h
  rcases finiteBody_eq_layout k spec hcode with
    ⟨x, style, forcePoint, hx, hfits, hwithin, hstyle, hbody⟩
  have hcountable : style.Countable x := hwithin.countable (by omega) (by omega)
  refine ⟨x, style, forcePoint, hx, hfits, hcountable, ?_⟩
  rw [hbody]
  exact layoutCounted?_eq_layout hcountable spec.alternate forcePoint

end Decimal
end FormatCheck
