import Mathlib.Tactic.FieldSimp
import FormatCheck.Proofs.Decimal.Value

/-!
# The shortest digits read back

Every expansion that the search for the shortest digits can return, a point of some grid or the
exact expansion after the last grid, rounds to the rank it was made for. How many grids are tried
does not matter for that.
-/

namespace FormatCheck
namespace Decimal

open Format

variable {F : Format}

/-- A normal form that the format rounds to a rank. -/
def ReadsBack (x : Decimal) (k : Fin F.overflowRank) : Prop :=
  ∃ c e, x = ofScientific c e ∧ F.nearest (shifted c 1 e).1 (shifted c 1 e).2 = k

/-- A point that is taken from a grid is one of those that were tested. -/
theorem nearest_of_gridPoint? {tie : Tie} {k : Fin F.overflowRank} {shift : Int} {c : Nat}
    (h : gridPoint? tie k shift = some c) :
    F.nearest (shifted c 1 (-shift)).1 (shifted c 1 (-shift)).2 = k := by
  unfold gridPoint? at h
  simp only at h
  generalize (shifted (F.units k) F.one shift).1 / (shifted (F.units k) F.one shift).2 = low at h
  split at h
  · next hlow hhigh =>
    rw [decide_eq_true_eq] at hlow hhigh
    split_ifs at h
    · rcases Option.some.inj h with rfl
      exact hlow
    · rcases Option.some.inj h with rfl
      exact hhigh
    · -- In the middle both points were tested, so either may be taken.
      cases tie with
      | up =>
          rcases Option.some.inj h with rfl
          exact hhigh
      | even =>
          rcases Option.some.inj h with rfl
          rcases Nat.mod_two_eq_zero_or_one low with hmod | hmod
          · rw [hmod]
            exact hlow
          · rw [hmod]
            exact hhigh
  · next hlow _ =>
    rcases Option.some.inj h with rfl
    exact of_decide_eq_true hlow
  · next _ hhigh =>
    rcases Option.some.inj h with rfl
    exact of_decide_eq_true hhigh
  · cases h

theorem exact_ratio (k : Fin F.overflowRank) :
    ((F.units k * 5 ^ F.scale : Nat) : ℚ) * 10 ^ (-(F.scale : Int)) = F.units k / F.one := by
  have hpow : (10 : ℚ) ^ F.scale = 5 ^ F.scale * 2 ^ F.scale := by
    rw [← mul_pow]
    norm_num
  rw [zpow_neg, zpow_natCast, hpow, one]
  push_cast
  field_simp

theorem readsBack_exact (k : Fin F.overflowRank) : (exact k).ReadsBack k := by
  refine ⟨_, _, rfl, ?_⟩
  have hratio : F.nearest (F.units k) F.one = k := nearest_eq_of_exact (Nat.two_pow_pos _) rfl
  refine (nearest_of_div_eq (shifted_snd_pos _ Nat.one_pos _) (Nat.two_pow_pos _) ?_).trans hratio
  rw [shifted_ratio, Nat.cast_one, div_one, exact_ratio, one]

/-- However many grids are tried, the expansion found reads back. -/
theorem readsBack_shortestFrom (tie : Tie) (k : Fin F.overflowRank) (order : Int)
    (tries digitCount : Nat) : (shortestFrom tie k order tries digitCount).ReadsBack k := by
  -- Every try looks at a finer grid, so the induction leaves the number of digits open.
  induction tries generalizing digitCount with
  | zero => exact readsBack_exact k
  | succ tries ih =>
      dsimp only [shortestFrom]
      cases h : gridPoint? tie k (digitCount - 1 - order) with
      | some c => exact ⟨c, _, rfl, nearest_of_gridPoint? h⟩
      | none => exact ih (digitCount + 1)

theorem readsBack_shortest (tie : Tie) (k : Fin F.overflowRank) : (shortest tie k).ReadsBack k := by
  unfold shortest
  split
  · next hk =>
    refine ⟨0, 0, rfl, ?_⟩
    rw [hk]
    exact nearest_eq_of_exact Nat.one_pos (by simp [shifted])
  · exact readsBack_shortestFrom tie k _ 17 1

theorem digits_shortest_ne_nil (tie : Tie) (k : Fin F.overflowRank) :
    (shortest tie k).digits ≠ [] := by
  rcases readsBack_shortest tie k with ⟨c, e, hx, _⟩
  rw [hx]
  exact digits_ofScientific_ne_nil c e

/-- A numeral with the value of the shortest digits is read as the magnitude they were made for. -/
theorem magnitude_of_value_shortest (hF : F.FitsOrderBound) {tie : Tie} {k : Fin F.overflowRank}
    {x : Scientific} (h : x.value = (shortest tie k).value) : x.magnitude F = .finite k := by
  rcases readsBack_shortest tie k with ⟨c, e, hx, hnearest⟩
  have hvalue : x.value = (shifted c 1 e).1 / (shifted c 1 e).2 := by
    rw [h, hx, value_ofScientific, shifted_ratio, Nat.cast_one, div_one]
  rw [Scientific.magnitude_eq_ofRatio hF (shifted_snd_pos _ Nat.one_pos _) hvalue,
    Magnitude.ofRatio, hnearest, Magnitude.ofRank_of_lt k.isLt]

end Decimal
end FormatCheck
