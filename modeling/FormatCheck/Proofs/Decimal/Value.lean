import Mathlib.Algebra.Order.Field.Rat
import Mathlib.Data.List.TakeWhile
import Mathlib.Tactic.NormNum
import Mathlib.Tactic.Positivity
import FormatCheck.Decimal.Reader
import FormatCheck.Proofs.Binary.Conversion
import FormatCheck.Proofs.Numeral

/-!
# Values of decimal numerals

A numeral and an expansion denote rational numbers. What is proved here ties every step of reading
and writing to that number: shifting a fraction multiplies it by a power of ten, the normal form of
an expansion keeps its value, and the magnitude that a numeral is read as is the rounding of its
value, the shortcut for extreme orders included (`magnitude_eq_ofRatio`).
-/

namespace FormatCheck

/-- A format whose magnitudes lie well inside the orders that are computed exactly. -/
structure Format.FitsOrderBound (F : Format) : Prop where
  unit_le : 2 * F.one ≤ 10 ^ Decimal.orderBound
  overflow_le : F.units F.overflowRank ≤ 10 ^ Decimal.orderBound * F.one

namespace Decimal

open Format

variable {F : Format}

theorem fitsOrderBound_binary32 : Format.binary32.FitsOrderBound where
  unit_le := by decide +kernel
  overflow_le := by decide +kernel

theorem fitsOrderBound_binary64 : Format.binary64.FitsOrderBound where
  unit_le := by decide +kernel
  overflow_le := by decide +kernel

/-! ## Denoted numbers -/

/-- The number that a numeral denotes. -/
def Scientific.value (x : Scientific) : ℚ := x.coefficient * 10 ^ x.exponent

/-- The digits of an expansion read as one number, with the exponent that sets the point. -/
def toScientific (x : Decimal) : Scientific :=
  ⟨Numeral.ofDigits 10 (x.digits.map Fin.val), x.point - x.digits.length⟩

/-- The number that an expansion denotes. -/
def value (x : Decimal) : ℚ := x.toScientific.value

/-! ## Shifted fractions -/

theorem shifted_snd_pos (n : Nat) {d : Nat} (hd : 0 < d) (shift : Int) :
    0 < (shifted n d shift).2 :=
  Nat.mul_pos hd (Nat.pow_pos (by decide))

theorem shifted_ratio (n d : Nat) (shift : Int) :
    ((shifted n d shift).1 : ℚ) / (shifted n d shift).2 = n / d * 10 ^ shift := by
  rcases shift.eq_nat_or_neg with ⟨k, rfl | rfl⟩
  · simp [shifted, zpow_natCast, mul_div_right_comm]
  · simp only [shifted, Int.toNat_neg_natCast, pow_zero, Nat.mul_one, neg_neg, Int.toNat_natCast,
      Nat.cast_mul, Nat.cast_pow, Nat.cast_ofNat, zpow_neg, zpow_natCast, div_mul_eq_div_div]
    rw [div_eq_mul_inv _ ((10 : ℚ) ^ k)]

/-- Rounding depends on the quotient alone, as a rational number. -/
theorem nearest_of_div_eq {n d n' d' : Nat} (hd : 0 < d) (hd' : 0 < d')
    (h : (n : ℚ) / d = n' / d') : F.nearest n d = F.nearest n' d' := by
  have hdq : (d : ℚ) ≠ 0 := Nat.cast_ne_zero.mpr hd.ne'
  have hdq' : (d' : ℚ) ≠ 0 := Nat.cast_ne_zero.mpr hd'.ne'
  rw [div_eq_div_iff hdq hdq'] at h
  exact nearest_congr hd hd' (by exact_mod_cast h)

/-! ## Orders of magnitude -/

/-- The number of digits before the point when the numeral is written out. -/
theorem Scientific.value_lt (x : Scientific) :
    x.value < 10 ^ (((Numeral.digits 10 x.coefficient).length : Int) + x.exponent) := by
  have hcoeff : (x.coefficient : ℚ) < 10 ^ (Numeral.digits 10 x.coefficient).length := by
    exact_mod_cast Numeral.lt_pow_length_digits (by decide : 1 < 10) x.coefficient
  rw [zpow_add₀ (by norm_num), zpow_natCast]
  exact mul_lt_mul_of_pos_right hcoeff (zpow_pos (by norm_num) _)

theorem Scientific.le_value {x : Scientific} (hx : x.coefficient ≠ 0) :
    10 ^ (((Numeral.digits 10 x.coefficient).length : Int) + x.exponent - 1) ≤ x.value := by
  have hlen : 1 ≤ (Numeral.digits 10 x.coefficient).length :=
    List.length_pos_iff.mpr (Numeral.digits_ne_nil 10 x.coefficient)
  have hcoeff : (10 : ℚ) ^ ((Numeral.digits 10 x.coefficient).length - 1) ≤ x.coefficient := by
    exact_mod_cast Numeral.pow_length_digits_le (by decide : 1 < 10) hx
  rw [show ((Numeral.digits 10 x.coefficient).length : Int) + x.exponent - 1 =
      (((Numeral.digits 10 x.coefficient).length - 1 : Nat) : Int) + x.exponent by omega,
    zpow_add₀ (by norm_num), zpow_natCast]
  exact mul_le_mul_of_nonneg_right hcoeff (zpow_nonneg (by norm_num) _)

/-! ## Reading a numeral -/

/-- A quotient below every positive magnitude of the format. -/
theorem nearest_eq_zero_of_lt (hF : F.FitsOrderBound) {n d : Nat} (hd : 0 < d)
    (h : (n : ℚ) / d < 10 ^ (-(orderBound : Int))) : F.nearest n d = 0 := by
  have hdq : (0 : ℚ) < d := Nat.cast_pos.mpr hd
  have hn : n * 10 ^ orderBound < d := by
    rw [zpow_neg, zpow_natCast, div_lt_iff₀ hdq, ← div_eq_inv_mul, lt_div_iff₀ (by positivity)] at h
    exact_mod_cast h
  refine nearest_eq_zero (lt_of_le_of_lt ?_ hn)
  calc
    2 * (n * F.one) = n * (2 * F.one) := by ring
    _ ≤ n * 10 ^ orderBound := Nat.mul_le_mul_left n hF.unit_le

/-- A quotient past the greatest magnitude of the format. -/
theorem overflowRank_le_nearest (hF : F.FitsOrderBound) {n d : Nat} (hd : 0 < d)
    (h : 10 ^ (orderBound : Int) ≤ (n : ℚ) / d) : F.overflowRank ≤ F.nearest n d := by
  have hdq : (0 : ℚ) < d := Nat.cast_pos.mpr hd
  have hn : 10 ^ orderBound * d ≤ n := by
    rw [zpow_natCast, le_div_iff₀ hdq] at h
    exact_mod_cast h
  refine le_nearest hd ?_
  calc
    F.units F.overflowRank * d ≤ 10 ^ orderBound * F.one * d :=
      Nat.mul_le_mul_right d hF.overflow_le
    _ = 10 ^ orderBound * d * F.one := by ring
    _ ≤ n * F.one := Nat.mul_le_mul_right F.one hn

/-- A numeral is read as the rounding of its value, however that is written as a quotient. -/
theorem Scientific.magnitude_eq_ofRatio (hF : F.FitsOrderBound) {x : Scientific} {n d : Nat}
    (hd : 0 < d) (h : x.value = n / d) : x.magnitude F = .ofRatio n d := by
  have hlt := x.value_lt
  unfold magnitude
  simp only
  split
  · next hsmall =>
    -- Zero, or below every magnitude that does not round to zero.
    have hzero : F.nearest n d = 0 := by
      rcases hsmall with hc | horder
      · have hn : n = 0 := by
          have hv : (n : ℚ) / d = 0 := by rw [← h, value, hc, Nat.cast_zero, zero_mul]
          simpa [hd.ne'] using hv
        exact nearest_eq_zero (by simpa [hn] using hd)
      · refine nearest_eq_zero_of_lt hF hd (lt_of_lt_of_le (h ▸ hlt) ?_)
        exact zpow_le_zpow_right₀ (by norm_num) horder.le
    rw [Magnitude.ofRatio, hzero]
  · next hsmall =>
    split
    · next hlarge =>
      -- The order counts the digits, so the value may be a tenth of the power of the order.
      have hc : x.coefficient ≠ 0 := fun hc => hsmall (Or.inl hc)
      have hle := Scientific.le_value hc
      rw [Magnitude.ofRatio, Magnitude.ofRank_of_ge]
      refine overflowRank_le_nearest hF hd (le_trans ?_ (h ▸ hle))
      exact zpow_le_zpow_right₀ (by norm_num) (by omega)
    · -- Within the bound the quotient that is rounded is the value itself.
      have hratio := shifted_ratio x.coefficient 1 x.exponent
      rw [Nat.cast_one, div_one] at hratio
      rw [Magnitude.ofRatio, Magnitude.ofRatio,
        nearest_of_div_eq (shifted_snd_pos _ Nat.one_pos _) hd (hratio.trans h)]

/-! ## Normal forms -/

/-- Stripping takes a run of zeros off the end. -/
theorem exists_stripZeros (ds : List (Fin 10)) :
    ∃ k, ds = stripZeros ds ++ List.replicate k 0 := by
  have hzeros : ∀ d ∈ ds.reverse.takeWhile (· = 0), d = 0 := by
    intro d hd
    simpa using List.mem_takeWhile_imp hd
  refine ⟨(ds.reverse.takeWhile (· = 0)).length, ?_⟩
  have hsplit : ds.reverse = ds.reverse.takeWhile (· = 0) ++ ds.reverse.dropWhile (· = 0) :=
    List.takeWhile_append_dropWhile.symm
  rw [List.eq_replicate_of_mem hzeros] at hsplit
  simpa [stripZeros] using congrArg List.reverse hsplit

theorem map_val_decimalDigits (n : Nat) :
    (decimalDigits n).map Fin.val = Numeral.digits 10 n := by
  rw [decimalDigits, List.map_map]
  refine (List.map_congr_left fun d hd => ?_).trans (List.map_id _)
  exact Nat.mod_eq_of_lt (Numeral.lt_of_mem_digits (by decide) hd)

/-- Zeros at the end of the digits do not change the value of an expansion. -/
theorem value_append_zeros (ds : List (Fin 10)) (k : Nat) (point : Int) :
    value ⟨ds ++ List.replicate k 0, point⟩ = value ⟨ds, point⟩ := by
  have hpoint : point - (ds.length : Int) = (k : Int) + (point - (ds.length + k : Nat)) := by
    push_cast
    ring
  simp only [value, toScientific, Scientific.value, List.map_append, List.map_replicate,
    Numeral.ofDigits_append, List.length_append, List.length_replicate, Fin.val_zero,
    Numeral.ofDigits_replicate_zero, Nat.add_zero]
  rw [hpoint, zpow_add₀ (by norm_num), zpow_natCast]
  push_cast
  ring

theorem value_stripZeros (ds : List (Fin 10)) (point : Int) :
    value ⟨stripZeros ds, point⟩ = value ⟨ds, point⟩ := by
  rcases exists_stripZeros ds with ⟨k, hk⟩
  conv_rhs => rw [hk]
  exact (value_append_zeros _ k point).symm

/-- The normal form of a numeral denotes the same number. -/
theorem value_ofScientific (c : Nat) (e : Int) : (ofScientific c e).value = c * 10 ^ e := by
  unfold ofScientific
  split
  · next hc =>
    rw [hc, Nat.cast_zero, zero_mul]
    norm_num [value, toScientific, Scientific.value, zero, Numeral.ofDigits]
  · rw [value_stripZeros]
    simp only [value, toScientific, Scientific.value, map_val_decimalDigits,
      Numeral.ofDigits_digits]
    rw [show ((decimalDigits c).length : Int) + e - (decimalDigits c).length = e by ring]

/-- A normal form has at least one digit. -/
theorem digits_ofScientific_ne_nil (c : Nat) (e : Int) : (ofScientific c e).digits ≠ [] := by
  unfold ofScientific
  split
  · simp [zero]
  · next hc =>
    -- Without a digit the coefficient would be a run of zeros.
    intro hnil
    rcases exists_stripZeros (decimalDigits c) with ⟨k, hk⟩
    rw [show stripZeros (decimalDigits c) = [] from hnil, List.nil_append] at hk
    have hdigits : Numeral.digits 10 c = List.replicate k 0 := by
      rw [← map_val_decimalDigits, hk, List.map_replicate, Fin.val_zero]
    refine hc ?_
    rw [← Numeral.ofDigits_digits 10 c, hdigits, Numeral.ofDigits_replicate_zero]

end Decimal
end FormatCheck
