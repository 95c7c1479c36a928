import Mathlib.Data.Nat.Log
import Mathlib.Order.Monotone.Basic
import Mathlib.Tactic.Linarith
import Mathlib.Tactic.Ring
import FormatCheck.Binary

/-!
# Ranks and rounding to the nearest

Every rank is a significand and a shift, `m + s * 2 ^ fractionBits`, and its magnitude is
`m * 2 ^ s` units. All laws of this module follow from that reading: magnitudes increase with the
rank, `rankBelow` inverts `units` from below, and `nearest` depends on the quotient alone, returns
the rank of a representable quotient and respects lower bounds.

`units_significand` also covers the significand one past the greatest, so that the successor of a
rank needs no case of its own.
-/

namespace FormatCheck
namespace Format

variable {F : Format} {k n d : Nat}

/-! ## Magnitudes of ranks -/

theorem units_significand {m s : Nat} (hm : m ≤ 2 * 2 ^ F.fractionBits)
    (hs : s = 0 ∨ 2 ^ F.fractionBits ≤ m) :
    F.units (m + s * 2 ^ F.fractionBits) = m * 2 ^ s := by
  have hP : 0 < 2 ^ F.fractionBits := Nat.two_pow_pos _
  unfold units
  generalize 2 ^ F.fractionBits = P at *
  rcases Nat.lt_or_ge m P with hlt | hge
  · -- Without the leading bit the shift is zero and the rank is its own magnitude.
    obtain rfl : s = 0 := by omega
    simp [Nat.div_eq_of_lt hlt]
  · rcases Nat.lt_or_ge m (2 * P) with hlt | hge
    · -- The leading bit is carried by the exponent field, which is one more than the shift.
      rcases Nat.exists_eq_add_of_le hge with ⟨r, rfl⟩
      have hr : r < P := by omega
      have hrank : P + r + s * P = r + (s + 1) * P := by ring
      rw [hrank, Nat.add_mul_div_right _ _ hP, Nat.add_mul_mod_self_right,
        Nat.div_eq_of_lt hr, Nat.mod_eq_of_lt hr]
      simp
    · -- The significand one past the greatest is the least one of the next exponent.
      obtain rfl : m = 2 * P := by omega
      have hrank : 2 * P + s * P = (s + 2) * P := by ring
      rw [hrank, Nat.mul_div_cancel _ hP, Nat.mul_mod_left]
      simp only [Nat.add_eq_zero_iff, OfNat.ofNat_ne_zero, and_false, if_false, Nat.add_zero]
      rw [show s + 2 - 1 = s + 1 by omega, Nat.pow_succ]
      ring

/-- The significand and the shift of a rank. -/
theorem exists_significand (F : Format) (k : Nat) :
    ∃ m s, k = m + s * 2 ^ F.fractionBits ∧ m < 2 * 2 ^ F.fractionBits ∧
      (s = 0 ∨ 2 ^ F.fractionBits ≤ m) := by
  have hP : 0 < 2 ^ F.fractionBits := Nat.two_pow_pos _
  generalize 2 ^ F.fractionBits = P at *
  rcases Nat.lt_or_ge k P with hlt | hge
  · exact ⟨k, 0, by omega, by omega, Or.inl rfl⟩
  · have hmod : k % P < P := Nat.mod_lt _ hP
    have hdiv : 1 ≤ k / P := (Nat.one_le_div_iff hP).mpr hge
    have hk : P * (k / P) + k % P = k := Nat.div_add_mod k P
    refine ⟨P + k % P, k / P - 1, ?_, by omega, Or.inr (by omega)⟩
    rcases Nat.exists_eq_add_of_le hdiv with ⟨e, he⟩
    rw [he] at hk ⊢
    rw [Nat.add_sub_cancel_left]
    linarith [Nat.mul_comm e P, Nat.mul_add P 1 e]

/-- The step from one magnitude to the next is a power of two. -/
theorem exists_units_succ (F : Format) (k : Nat) : ∃ s, F.units (k + 1) = F.units k + 2 ^ s := by
  rcases exists_significand F k with ⟨m, s, rfl, hm, hs⟩
  refine ⟨s, ?_⟩
  have hs' : s = 0 ∨ 2 ^ F.fractionBits ≤ m + 1 := hs.imp_right fun h => by omega
  rw [show m + s * 2 ^ F.fractionBits + 1 = (m + 1) + s * 2 ^ F.fractionBits by ring,
    units_significand (by omega) hs', units_significand (by omega) hs]
  ring

theorem units_strictMono (F : Format) : StrictMono F.units := by
  refine strictMono_nat_of_lt_succ ?_
  intro k
  rcases exists_units_succ F k with ⟨s, hs⟩
  have hpos : 0 < 2 ^ s := Nat.two_pow_pos s
  omega

@[simp] theorem units_zero (F : Format) : F.units 0 = 0 := by
  simp [units]

/-! ## The rank below a number of units -/

/-- The significand that `rankBelow` takes from a number, and its shift. -/
theorem rankBelow_significand (F : Format) (q : Nat) :
    q / 2 ^ (q.log2 - F.fractionBits) < 2 * 2 ^ F.fractionBits ∧
      (q.log2 - F.fractionBits = 0 ∨
        2 ^ F.fractionBits ≤ q / 2 ^ (q.log2 - F.fractionBits)) := by
  constructor
  · have hq : q < 2 ^ (q.log2 + 1) := Nat.lt_log2_self
    have hpow : 2 ^ (q.log2 + 1) ≤
        2 * 2 ^ F.fractionBits * 2 ^ (q.log2 - F.fractionBits) := by
      rw [← Nat.pow_succ', ← Nat.pow_add]
      exact Nat.pow_le_pow_right (by decide) (by omega)
    exact (Nat.div_lt_iff_lt_mul (Nat.two_pow_pos _)).mpr (lt_of_lt_of_le hq hpow)
  · rcases Nat.lt_or_ge F.fractionBits q.log2 with hlt | hge
    · have hq0 : q ≠ 0 := by
        rintro rfl
        simp at hlt
      refine Or.inr ((Nat.le_div_iff_mul_le (Nat.two_pow_pos _)).mpr ?_)
      rw [← Nat.pow_add, show F.fractionBits + (q.log2 - F.fractionBits) = q.log2 by omega]
      exact Nat.log2_self_le hq0
    · exact Or.inl (by omega)

theorem units_rankBelow_le (F : Format) (q : Nat) : F.units (F.rankBelow q) ≤ q := by
  rcases rankBelow_significand F q with ⟨hlt, hs⟩
  rw [rankBelow, units_significand hlt.le hs]
  exact Nat.div_mul_le_self q _

theorem lt_units_rankBelow_succ (F : Format) (q : Nat) : q < F.units (F.rankBelow q + 1) := by
  rcases rankBelow_significand F q with ⟨hlt, hs⟩
  dsimp only [rankBelow]
  generalize q.log2 - F.fractionBits = s at *
  have hs' : s = 0 ∨ 2 ^ F.fractionBits ≤ q / 2 ^ s + 1 := hs.imp_right fun h => by omega
  rw [show q / 2 ^ s + s * 2 ^ F.fractionBits + 1 = (q / 2 ^ s + 1) + s * 2 ^ F.fractionBits by
    ring, units_significand hlt hs']
  exact (Nat.div_lt_iff_lt_mul (Nat.two_pow_pos s)).mp (Nat.lt_succ_self _)

/-- The rank below a number is the only one whose magnitude and the next enclose it. -/
theorem rankBelow_eq {q : Nat} (hle : F.units k ≤ q) (hlt : q < F.units (k + 1)) :
    F.rankBelow q = k := by
  have hmono := units_strictMono F
  have h1 : F.rankBelow q < k + 1 :=
    hmono.lt_iff_lt.mp (lt_of_le_of_lt (units_rankBelow_le F q) hlt)
  have h2 : k < F.rankBelow q + 1 :=
    hmono.lt_iff_lt.mp (lt_of_le_of_lt hle (lt_units_rankBelow_succ F q))
  omega

/-! ## Nearest ranks -/

/-- Every quotient lies between two neighbouring magnitudes. -/
theorem exists_between (F : Format) (n : Nat) (hd : 0 < d) :
    ∃ k, F.units k * d ≤ n * F.one ∧ n * F.one < F.units (k + 1) * d := by
  refine ⟨F.rankBelow (n * F.one / d), ?_, ?_⟩
  · exact (Nat.le_div_iff_mul_le hd).mp (units_rankBelow_le F _)
  · exact (Nat.div_lt_iff_lt_mul hd).mp (lt_units_rankBelow_succ F _)

/-- The nearest rank is decided by the midpoint of the magnitudes around the quotient. -/
theorem nearest_eq_of_between (hd : 0 < d) (hle : F.units k * d ≤ n * F.one)
    (hlt : n * F.one < F.units (k + 1) * d) :
    F.nearest n d =
      if 2 * (n * F.one) < (F.units k + F.units (k + 1)) * d then k
      else if (F.units k + F.units (k + 1)) * d < 2 * (n * F.one) then k + 1
      else k + k % 2 := by
  have hk : F.rankBelow (n * F.one / d) = k :=
    rankBelow_eq ((Nat.le_div_iff_mul_le hd).mpr hle) ((Nat.div_lt_iff_lt_mul hd).mpr hlt)
  simp only [nearest, hk]

/-- A rank rounds to one of the two neighbours of the quotient. -/
theorem nearest_mem_neighbours (hd : 0 < d) (hle : F.units k * d ≤ n * F.one)
    (hlt : n * F.one < F.units (k + 1) * d) : k ≤ F.nearest n d ∧ F.nearest n d ≤ k + 1 := by
  rw [nearest_eq_of_between hd hle hlt]
  split_ifs <;> omega

theorem nearest_mul {c : Nat} (hd : 0 < d) (hc : 0 < c) :
    F.nearest (n * c) (d * c) = F.nearest n d := by
  -- Both quotients lie between the same magnitudes and on the same side of their midpoint.
  rcases exists_between F n hd with ⟨k, hle, hlt⟩
  have hnumerator : n * c * F.one = n * F.one * c := by ring
  have hle' : F.units k * (d * c) ≤ n * c * F.one := by
    rw [hnumerator, ← Nat.mul_assoc]
    exact Nat.mul_le_mul_right c hle
  have hlt' : n * c * F.one < F.units (k + 1) * (d * c) := by
    rw [hnumerator, ← Nat.mul_assoc]
    exact Nat.mul_lt_mul_of_pos_right hlt hc
  rw [nearest_eq_of_between hd hle hlt,
    nearest_eq_of_between (Nat.mul_pos hd hc) hle' hlt', hnumerator]
  simp only [← Nat.mul_assoc, Nat.mul_lt_mul_right hc]

/-- Rounding depends on the quotient alone. -/
theorem nearest_congr {n' d' : Nat} (hd : 0 < d) (hd' : 0 < d') (h : n * d' = n' * d) :
    F.nearest n d = F.nearest n' d' := by
  calc
    F.nearest n d = F.nearest (n * d') (d * d') := (nearest_mul hd hd').symm
    _ = F.nearest (n' * d) (d' * d) := by rw [h, Nat.mul_comm d d']
    _ = F.nearest n' d' := nearest_mul hd' hd

/-- A quotient that is a magnitude rounds to its rank. -/
theorem nearest_eq_of_exact (hd : 0 < d) (h : n * F.one = F.units k * d) : F.nearest n d = k := by
  have hstep : F.units k * d < F.units (k + 1) * d :=
    Nat.mul_lt_mul_of_pos_right (units_strictMono F (Nat.lt_succ_self k)) hd
  rw [nearest_eq_of_between hd h.ge (h ▸ hstep), if_pos]
  rw [h, Nat.add_mul]
  omega

/-- A quotient of at least a magnitude does not round below its rank. -/
theorem le_nearest (hd : 0 < d) (h : F.units k * d ≤ n * F.one) : k ≤ F.nearest n d := by
  rcases exists_between F n hd with ⟨j, hle, hlt⟩
  have hkj : F.units k < F.units (j + 1) :=
    Nat.lt_of_mul_lt_mul_right (lt_of_le_of_lt h hlt)
  have hlt' : k < j + 1 := (units_strictMono F).lt_iff_lt.mp hkj
  have := (nearest_mem_neighbours hd hle hlt).1
  omega

/-- A quotient below half a unit rounds to zero. -/
theorem nearest_eq_zero (h : 2 * (n * F.one) < d) : F.nearest n d = 0 := by
  have hunit : d ≤ F.units (0 + 1) * d := by
    have : 0 < F.units (0 + 1) := by
      simpa using units_strictMono F (Nat.lt_succ_self 0)
    exact Nat.le_mul_of_pos_left d this
  rw [nearest_eq_of_between (k := 0) (by omega) (by simp) (by omega), if_pos]
  rw [units_zero, Nat.zero_add]
  omega

end Format
end FormatCheck
