import FormatCheck.Proofs.Decimal.Counters
import FormatCheck.Proofs.Decimal.Normal

/-!
# Bounds on expansions and their texts

How many digits an expansion has, and how far its point is away from them, is bounded by the sizes
of the numbers that it is made from (`Within`). So is the number of characters of its text, to which
a style adds the digits that its precision asks for. The bounds are crude: all that matters is that
they are far below what can be counted.
-/

namespace FormatCheck
namespace Decimal

/-! ## Expansions -/

/-- Neither the number of digits nor the distance of the point exceeds a bound. -/
structure Within (x : Decimal) (bound : Nat) : Prop where
  digits : x.digits.length ≤ bound
  point : -(bound : Int) ≤ x.point ∧ x.point ≤ bound

variable {x : Decimal} {bound : Nat}

theorem Within.mono (h : x.Within bound) {bound' : Nat} (hle : bound ≤ bound') :
    x.Within bound' := by
  rcases h.point with ⟨hlow, hhigh⟩
  exact ⟨le_trans h.digits hle, by omega, by omega⟩

theorem within_zero (hbound : 1 ≤ bound) : zero.Within bound := by
  refine ⟨hbound, ?_, ?_⟩
  · show -(bound : Int) ≤ 1
    omega
  · show (1 : Int) ≤ bound
    omega

theorem length_stripZeros_le (ds : List (Fin 10)) : (stripZeros ds).length ≤ ds.length := by
  rcases exists_stripZeros ds with ⟨k, hk⟩
  have hlength := congrArg List.length hk
  rw [List.length_append, List.length_replicate] at hlength
  omega

/-- A coefficient of `count` digits stands within them and its exponent. -/
theorem within_ofScientific {c count : Nat} {e : Int} (hcount : 1 ≤ count) (hc : c < 10 ^ count)
    (hle : count ≤ bound) (hlow : -(bound : Int) ≤ e) (hhigh : e + count ≤ bound) :
    (ofScientific c e).Within bound := by
  unfold ofScientific
  split
  · exact within_zero (le_trans hcount hle)
  · have hstrip := length_stripZeros_le (decimalDigits c)
    have hdigits := Numeral.length_digits_le (by decide : 1 < 10) hcount hc
    have hlength : (decimalDigits c).length = (Numeral.digits 10 c).length := List.length_map _
    refine ⟨?_, ?_, ?_⟩
    · show (stripZeros (decimalDigits c)).length ≤ bound
      omega
    · show -(bound : Int) ≤ (decimalDigits c).length + e
      omega
    · show ((decimalDigits c).length : Int) + e ≤ bound
      omega

variable {n d a b : Nat}

/-- The order of a quotient lies between the sizes of its terms. -/
theorem orderOf_bounds (ha : n < 10 ^ a) (hb : d < 10 ^ b) (hpos : 0 < b) :
    -(b : Int) ≤ orderOf n d ∧ orderOf n d < a + b := by
  have hplaces := Numeral.length_digits_le (by decide : 1 < 10) hpos hb
  generalize hlength : (Numeral.digits 10 d).length = places at hplaces
  have hquotient : n * 10 ^ places / d < 10 ^ (a + b) := by
    calc
      n * 10 ^ places / d ≤ n * 10 ^ places := Nat.div_le_self _ _
      _ < 10 ^ a * 10 ^ places := Nat.mul_lt_mul_of_pos_right ha (by positivity)
      _ ≤ 10 ^ a * 10 ^ b := Nat.mul_le_mul_left _ (Nat.pow_le_pow_right (by decide) hplaces)
      _ = 10 ^ (a + b) := (pow_add 10 a b).symm
  have hcount := Numeral.length_digits_le (by decide : 1 < 10) (by omega) hquotient
  have hone : 0 < (Numeral.digits 10 (n * 10 ^ places / d)).length :=
    List.length_pos_iff.mpr (Numeral.digits_ne_nil _ _)
  rw [orderOf, hlength]
  omega

theorem pow_lt_pow_succ_of_le {c count : Nat} (hc : c ≤ 10 ^ count) : c < 10 ^ (count + 1) :=
  lt_of_le_of_lt hc (Nat.pow_lt_pow_right (by decide) (Nat.lt_succ_self count))

/-- Rounding to a number of digits stays within that number and the sizes of the terms. -/
theorem within_rounded (hd : 0 < d) (ha : n < 10 ^ a) (hb : d < 10 ^ b) (hpos : 0 < b)
    (significant : Nat) : (rounded n d significant).Within (a + b + max significant 1 + 1) := by
  have horder := orderOf_bounds ha hb hpos
  unfold rounded
  split
  · exact within_zero (by omega)
  · have hle := divHalfEven_le (shifted_fst_lt n hd (significant.max 1))
    have hmax : significant.max 1 = max significant 1 := rfl
    refine within_ofScientific (Nat.le_add_left 1 _) (pow_lt_pow_succ_of_le hle) ?_ ?_ ?_
    · omega
    · omega
    · omega

variable {F : Format} {tie : Tie} {k : Fin F.overflowRank}

theorem le_succ_of_gridPoint? {shift : Int} {c : Nat} (h : gridPoint? tie k shift = some c) :
    c ≤ (shifted (F.units k) F.one shift).1 / (shifted (F.units k) F.one shift).2 + 1 := by
  unfold gridPoint? at h
  dsimp only at h
  split at h
  · split_ifs at h
    · cases h
      omega
    · cases h
      omega
    · cases tie <;> cases h <;> omega
  · cases h
    omega
  · cases h
    omega
  · cases h

/-- A point of the grid of `count` digits has no more of them, but may be the power above. -/
theorem le_pow_of_gridPoint? {count : Nat} {c : Nat}
    (h : gridPoint? tie k (count - 1 - orderOf (F.units k) F.one) = some c) : c ≤ 10 ^ count := by
  have hone : 0 < F.one := Nat.two_pow_pos _
  have hlt := Nat.div_lt_of_lt_mul (Nat.mul_comm _ _ ▸ shifted_fst_lt (F.units k) hone count)
  have hle := le_succ_of_gridPoint? h
  omega

theorem within_exact (ha : F.units k < 10 ^ a) (hpos : 0 < a) : (exact k).Within (a + F.scale) := by
  refine within_ofScientific (le_trans hpos (Nat.le_add_right a F.scale)) ?_ (le_refl _) ?_ ?_
  · calc
      F.units k * 5 ^ F.scale < 10 ^ a * 5 ^ F.scale :=
        Nat.mul_lt_mul_of_pos_right ha (by positivity)
      _ ≤ 10 ^ a * 10 ^ F.scale := Nat.mul_le_mul_left _ (Nat.pow_le_pow_left (by decide) _)
      _ = 10 ^ (a + F.scale) := (pow_add 10 a F.scale).symm
  · omega
  · omega

theorem within_shortestFrom (ha : F.units k < 10 ^ a) (hpos : 0 < a) (hb : F.one < 10 ^ b)
    (hpos' : 0 < b) (tries count : Nat) :
    (shortestFrom tie k (orderOf (F.units k) F.one) tries count).Within
      (a + b + F.scale + tries + count) := by
  induction tries generalizing count with
  | zero => exact (within_exact ha hpos).mono (by omega)
  | succ tries ih =>
      have horder := orderOf_bounds ha hb hpos'
      dsimp only [shortestFrom]
      cases h : gridPoint? tie k (count - 1 - orderOf (F.units k) F.one) with
      | some c =>
          have hlt := pow_lt_pow_succ_of_le (le_pow_of_gridPoint? h)
          refine within_ofScientific (Nat.le_add_left 1 _) hlt ?_ ?_ ?_
          · omega
          · omega
          · omega
      | none => exact (ih (count + 1)).mono (by omega)

theorem within_shortest (ha : F.units k < 10 ^ a) (hpos : 0 < a) (hb : F.one < 10 ^ b)
    (hpos' : 0 < b) : (shortest tie k).Within (a + b + F.scale + 18) := by
  unfold shortest
  split
  · exact within_zero (by omega)
  · exact within_shortestFrom ha hpos hb hpos' 17 1

/-- An expansion within far fewer places than can be counted is laid out in range. -/
theorem Within.countable (hx : x.Within bound) (hbound : bound < 2 ^ 31) {style : Layout}
    (hprecision : style.precision < 2 ^ 31) : style.Countable x := by
  have hdigits := hx.digits
  rcases hx.point with ⟨hlow, hhigh⟩
  constructor <;> omega

/-! ## Doubles -/

theorem units_binary64_lt (k : Fin Format.binary64.overflowRank) :
    Format.binary64.units k < 10 ^ 640 :=
  lt_trans (Format.units_strictMono _ k.isLt) (by decide +kernel)

theorem one_binary64_lt : Format.binary64.one < 10 ^ 330 := by decide +kernel

theorem within_rounded_binary64 (k : Fin Format.binary64.overflowRank) (significant : Nat) :
    (rounded (Format.binary64.units k) Format.binary64.one significant).Within
      (significant + 1000) :=
  (within_rounded (Nat.two_pow_pos _) (units_binary64_lt k) one_binary64_lt (by decide)
    significant).mono (by omega)

theorem within_shortest_binary64 (tie : Tie) (k : Fin Format.binary64.overflowRank) :
    (shortest tie k).Within 3000 :=
  (within_shortest (units_binary64_lt k) (by decide) one_binary64_lt (by decide)).mono
    (by decide +kernel)

/-! ## Texts -/

theorem length_decimal_le (n : Nat) : (Numeral.decimal n).length ≤ n + 1 := by
  have hlt : n < 10 ^ (n + 1) := lt_trans (Nat.lt_succ_self n) (Nat.lt_pow_self (by decide))
  rw [Numeral.decimal, Numeral.text, List.length_map]
  exact Numeral.length_digits_le (by decide) (Nat.succ_pos n) hlt

theorem length_exponentText_le (e : Int) : (exponentText e).length ≤ e.natAbs + 5 := by
  have hlength := length_decimal_le e.natAbs
  rw [exponentText, Numeral.zeroPad, List.length_cons, List.length_cons, List.length_append,
    List.length_replicate]
  omega

theorem length_dropFinalPoint_le (alternate : Bool) (s : List Char) :
    (dropFinalPoint alternate s).length ≤ s.length := by
  unfold dropFinalPoint
  split
  · rw [List.length_dropLast]
    exact Nat.sub_le _ _
  · exact le_refl _

theorem length_setPoint_le (ds : List (Fin 10)) (point : Int) :
    (setPoint ds point).length ≤ ds.length + point.natAbs + 2 := by
  unfold setPoint digitText
  split
  · simp only [List.length_cons, List.length_append, List.length_replicate, List.length_map]
    omega
  · simp only [List.length_cons, List.length_append, List.length_map, List.length_take,
      List.length_drop]
    omega

/-- A mantissa takes its digits and the places to its point. -/
theorem length_mantissa_le (alternate : Bool) (count : Nat) (ds : List (Fin 10)) (point : Int) :
    (dropFinalPoint alternate (setPoint (extend count ds) point)).length ≤
      max count ds.length + point.natAbs + 2 := by
  rw [← length_extend count ds]
  exact le_trans (length_dropFinalPoint_le _ _) (length_setPoint_le _ _)

theorem Layout.digitCount_le (style : Layout) (alternate : Bool) (ds : List (Fin 10)) :
    style.digitCount alternate ds ≤ style.precision + ds.length + 1 := by
  cases style with
  | exponent precision =>
      show precision + 1 ≤ precision + _ + 1
      omega
  | general precision =>
      cases alternate with
      | false =>
          show ds.length ≤ _
          omega
      | true =>
          show precision ≤ precision + _ + 1
          omega
  | shortest =>
      show ds.length ≤ _
      omega

/-- The text of an expansion takes no more characters than its digits, its point and the precision
of the style make up. -/
theorem length_layout_le (hx : x.Within bound) (style : Layout) (alternate forcePoint : Bool) :
    (layout x style alternate forcePoint).length ≤ style.precision + 4 * bound + 20 := by
  have hcount := style.digitCount_le alternate x.digits
  have hdigits := hx.digits
  rcases hx.point with ⟨hlow, hhigh⟩
  unfold layout
  dsimp only
  split
  · have hmantissa := length_mantissa_le alternate
      (max (style.digitCount alternate x.digits) 1) x.digits 1
    have hexponent := length_exponentText_le (x.point - 1)
    rw [List.length_append]
    change _ + _ ≤ _
    refine le_trans (Nat.add_le_add hmantissa hexponent) ?_
    omega
  · refine le_trans (length_mantissa_le alternate _ x.digits x.point) ?_
    generalize hshown : (if forcePoint then x.point + 1 else x.point) = shown
    have hle : shown ≤ x.point + 1 := by
      split at hshown <;> omega
    change max (max (style.digitCount alternate x.digits) shown.toNat) _ + _ + _ ≤ _
    omega

/-- The parts of a text in fixed form take the digits of the number and the places asked for. -/
theorem length_fixed_le (ha : n + 1 < 10 ^ a) (hpos : 0 < a) (hd : 0 < d) (places : Nat) :
    (fixed n d places).1.length + (fixed n d places).2.length ≤ a + places := by
  have hquotient : Rounding.divHalfEven (n * 10 ^ places) d ≤ 10 ^ places * (n + 1) := by
    apply divHalfEven_le
    calc
      n * 10 ^ places < (n + 1) * 10 ^ places :=
        Nat.mul_lt_mul_of_pos_right (Nat.lt_succ_self n) (by positivity)
      _ = 10 ^ places * (n + 1) := Nat.mul_comm _ _
      _ ≤ 10 ^ places * (n + 1) * d := Nat.le_mul_of_pos_right _ hd
  have hwhole : Rounding.divHalfEven (n * 10 ^ places) d / 10 ^ places < 10 ^ a :=
    lt_of_le_of_lt (Nat.div_le_of_le_mul hquotient) ha
  have hlength : (fixed n d places).1.length ≤ a := by
    show (Numeral.decimal _).length ≤ a
    rw [Numeral.decimal, Numeral.text, List.length_map]
    exact Numeral.length_digits_le (by decide) hpos hwhole
  have hfraction : (fixed n d places).2.length ≤ places := by
    show (if places = 0 then [] else _).length ≤ places
    split
    · exact Nat.zero_le _
    · next hne =>
      have hplaces : 0 < places := Nat.pos_of_ne_zero hne
      exact le_of_eq (Numeral.length_zeroPad_text (by decide) hplaces
        (Nat.mod_lt _ (by positivity)))
  omega

end Decimal
end FormatCheck
