import FormatCheck.Proofs.Decimal.Shortest

/-!
# Normal expansions

An expansion is normal when no zero stands at either end of its digits. Every expansion that is made
is normal, as they all come from `ofScientific` (`normal_ofScientific`), and one that was rounded to
a number of digits has no more of them (`length_digits_rounded_le`), although rounding up may lead
to a power of ten with a digit more: that digit is a zero, which the normal form drops.
-/

namespace FormatCheck
namespace Decimal

variable {x : Decimal}

/-! ## Normal expansions -/

/-- No zero stands at either end of the digits, and zero is one digit before the point. -/
def Normal (x : Decimal) : Prop :=
  x = zero ∨ x.digits ≠ [] ∧ (∀ d ∈ x.digits.head?, d.val ≠ 0) ∧ ∀ d ∈ x.digits.getLast?, d.val ≠ 0

theorem Normal.digits_ne_nil (hx : x.Normal) : x.digits ≠ [] := by
  rcases hx with rfl | ⟨hne, _, _⟩
  · decide
  · exact hne

theorem ne_zero_of_getLast?_stripZeros {ds : List (Fin 10)} {d : Fin 10}
    (h : (stripZeros ds).getLast? = some d) : d.val ≠ 0 := by
  rw [stripZeros, List.getLast?_reverse] at h
  have hnot := List.head?_dropWhile_not (fun d : Fin 10 => decide (d = 0)) ds.reverse
  rw [h] at hnot
  exact Fin.val_ne_of_ne (of_decide_eq_false hnot)

theorem ne_zero_of_head?_decimalDigits {n : Nat} (hn : n ≠ 0) {d : Fin 10}
    (h : (decimalDigits n).head? = some d) : d.val ≠ 0 := by
  intro hd
  apply hn
  apply Numeral.eq_zero_of_head?_decimal
  have hdigits : (Numeral.digits 10 n).head? = some 0 := by
    rw [← map_val_decimalDigits, List.head?_map, h, Option.map_some, hd]
  rw [Numeral.decimal, Numeral.text, List.head?_map, hdigits]
  rfl

/-- The normal form of a numeral has no needless zero. -/
theorem normal_ofScientific (c : Nat) (e : Int) : (ofScientific c e).Normal := by
  by_cases hc : c = 0
  · subst hc
    exact Or.inl rfl
  · have hne := digits_ofScientific_ne_nil c e
    rw [ofScientific, if_neg hc] at hne ⊢
    refine Or.inr ⟨hne, fun d hd => ?_, fun d hd => ne_zero_of_getLast?_stripZeros hd⟩
    obtain ⟨k, hk⟩ := exists_stripZeros (decimalDigits c)
    apply ne_zero_of_head?_decimalDigits hc
    rw [hk, List.head?_append_of_ne_nil _ hne]
    exact hd

theorem normal_rounded (n d significant : Nat) : (rounded n d significant).Normal := by
  unfold rounded
  split
  · exact Or.inl rfl
  · exact normal_ofScientific _ _

theorem normal_shortest {F : Format} (tie : Tie) (k : Fin F.overflowRank) :
    (shortest tie k).Normal := by
  obtain ⟨c, e, heq, _⟩ := readsBack_shortest tie k
  rw [heq]
  exact normal_ofScientific c e

/-! ## Rounded expansions -/

/-- The order bounds the quotient from above. -/
theorem div_lt_pow_orderOf (n : Nat) {d : Nat} (hd : 0 < d) :
    (n : ℚ) / d < 10 ^ (orderOf n d + 1) := by
  generalize hplaces : (Numeral.digits 10 d).length = places
  generalize hcount : (Numeral.digits 10 (n * 10 ^ places / d)).length = count
  have horder : orderOf n d + 1 = (count : Int) - places := by
    rw [orderOf, hplaces, hcount]
    ring
  have hquotient : n * 10 ^ places / d < 10 ^ count :=
    hcount ▸ Numeral.lt_pow_length_digits (by decide) _
  have hcross : (n : ℚ) * 10 ^ places < 10 ^ count * d := by
    exact_mod_cast (Nat.div_lt_iff_lt_mul hd).mp hquotient
  rw [horder, zpow_sub₀ (by norm_num), zpow_natCast, zpow_natCast,
    div_lt_div_iff₀ (by exact_mod_cast hd) (by positivity)]
  exact hcross

theorem divHalfEven_le {n d m : Nat} (h : n < m * d) : Rounding.divHalfEven n d ≤ m := by
  have hlt : n / d < m := Nat.div_lt_of_lt_mul (Nat.mul_comm m d ▸ h)
  simp only [Rounding.divHalfEven]
  split
  · omega
  · split <;> omega

theorem getLast?_decimalDigits {n : Nat} (hn : 10 ≤ n) :
    (decimalDigits n).getLast? = some (Fin.ofNat 10 (n % 10)) := by
  rw [decimalDigits, Numeral.digits_eq, if_neg (by omega), List.map_append]
  exact List.getLast?_concat

/-- A number below a power of ten has no more digits than that has zeros, and the power itself, to
which rounding may lead, keeps one digit in the normal form. -/
theorem length_digits_ofScientific_le {c count : Nat} (hcount : 1 ≤ count) (hc : c ≤ 10 ^ count)
    (e : Int) : (ofScientific c e).digits.length ≤ count := by
  unfold ofScientific
  split
  · exact hcount
  · next hne =>
    obtain ⟨k, hk⟩ := exists_stripZeros (decimalDigits c)
    have hlength : (decimalDigits c).length = (stripZeros (decimalDigits c)).length + k := by
      have hlengths := congrArg List.length hk
      rwa [List.length_append, List.length_replicate] at hlengths
    have hdigits : (decimalDigits c).length = (Numeral.digits 10 c).length := by
      rw [decimalDigits, List.length_map]
    have hpow := Numeral.pow_length_digits_le (by decide : 1 < 10) hne
    have hle : (Numeral.digits 10 c).length - 1 ≤ count :=
      (Nat.pow_le_pow_iff_right (by decide)).mp (le_trans hpow hc)
    show (stripZeros (decimalDigits c)).length ≤ count
    rcases Nat.lt_or_ge count (Numeral.digits 10 c).length with hlt | hge
    · -- The number is the power itself, and its last digit is a zero that was stripped.
      have heq : c = 10 ^ count := by
        have hcount' : (Numeral.digits 10 c).length - 1 = count := by omega
        rw [hcount'] at hpow
        exact le_antisymm hc hpow
      have hdvd : 10 ∣ c := heq ▸ dvd_pow_self 10 (by omega)
      have hsmall : 10 ≤ c := Nat.le_of_dvd (Nat.pos_of_ne_zero hne) hdvd
      have hlast : (Fin.ofNat 10 (c % 10)).val = 0 := by
        rw [Nat.mod_eq_zero_of_dvd hdvd]
        rfl
      have hk0 : k ≠ 0 := by
        rintro rfl
        rw [List.replicate_zero, List.append_nil] at hk
        exact ne_zero_of_getLast?_stripZeros (hk ▸ getLast?_decimalDigits hsmall) hlast
      omega
    · omega

/-- The shift to a number of digits brings the quotient below the power of ten that has one digit
too many. -/
theorem shifted_fst_lt (n : Nat) {d : Nat} (hd : 0 < d) (count : Nat) :
    (shifted n d (count - 1 - orderOf n d)).1 <
      10 ^ count * (shifted n d (count - 1 - orderOf n d)).2 := by
  generalize hshift : (count : Int) - 1 - orderOf n d = shift
  have hden : 0 < (shifted n d shift).2 := shifted_snd_pos n hd shift
  have hpow : orderOf n d + 1 + shift = count := by
    rw [← hshift]
    ring
  have hquotient : ((shifted n d shift).1 : ℚ) / (shifted n d shift).2 < 10 ^ count := by
    calc
      ((shifted n d shift).1 : ℚ) / (shifted n d shift).2 = n / d * 10 ^ shift :=
        shifted_ratio n d shift
      _ < 10 ^ (orderOf n d + 1) * 10 ^ shift :=
        mul_lt_mul_of_pos_right (div_lt_pow_orderOf n hd) (zpow_pos (by norm_num) _)
      _ = 10 ^ count := by
        rw [← zpow_add₀ (by norm_num), hpow, zpow_natCast]
  rw [div_lt_iff₀ (by exact_mod_cast hden)] at hquotient
  exact_mod_cast hquotient

/-- Rounding to a number of digits leaves no more of them. -/
theorem length_digits_rounded_le (n : Nat) {d : Nat} (hd : 0 < d) (significant : Nat) :
    (rounded n d significant).digits.length ≤ max significant 1 := by
  have hone : 1 ≤ max significant 1 := le_max_right _ _
  unfold rounded
  split
  · exact hone
  · exact length_digits_ofScientific_le hone (divHalfEven_le (shifted_fst_lt n hd _)) _

end Decimal
end FormatCheck
