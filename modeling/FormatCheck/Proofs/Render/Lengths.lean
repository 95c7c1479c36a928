import FormatCheck.Proofs.Decimal.Shape
import FormatCheck.Proofs.Render.NumberLayout

/-!
# How long a number is shown

Without padding the text of a number takes a few characters for its sign and its marks, and the rest
for its digits: those of an integer of 64 bits, or those that the precision asks for and the point of
a float makes up. Up to the greatest precision that is rendered this is far below what can be counted
(`naturalLength_lt`).
-/

namespace FormatCheck
namespace Render

variable {spec : Spec} {parts : NumberParts}

/-! ## Floats -/

theorem length_finiteBody_le (k : Fin Format.binary64.overflowRank) (spec : Spec)
    (code : Option Char) :
    (finiteBody k spec code).length ≤ 5 * spec.precision.getD defaultPrecision + 13000 := by
  by_cases hcode : ∀ c ∈ code, (c = 'e' ∨ c = 'E') ∨ c = 'g' ∨ c = 'G' ∨ c = 'n'
  · rcases Decimal.finiteBody_eq_layout k spec hcode with
      ⟨x, style, forcePoint, _, _, hwithin, hstyle, hbody⟩
    have hlength := Decimal.length_layout_le hwithin style spec.alternate forcePoint
    rw [hbody]
    generalize spec.precision.getD defaultPrecision = precision at hlength hstyle ⊢
    exact le_trans hlength (by omega)
  · obtain ⟨c, rfl, hc⟩ : ∃ c, code = some c ∧
        ¬((c = 'e' ∨ c = 'E') ∨ c = 'g' ∨ c = 'G' ∨ c = 'n') := by
      simpa using hcode
    rw [not_or] at hc
    have hunits : Format.binary64.units k + 1 < 10 ^ 641 := by
      have hlt := Decimal.units_binary64_lt k
      exact lt_of_le_of_lt hlt (by decide +kernel)
    have hlength := Decimal.length_fixed_le hunits (by decide)
      (Nat.two_pow_pos Format.binary64.scale) (spec.precision.getD defaultPrecision)
    simp only [finiteBody, if_neg hc.1, if_neg hc.2, List.length_append]
    generalize spec.precision.getD defaultPrecision = precision at hlength ⊢
    split
    · exact le_trans (Nat.add_le_add_left (Nat.zero_le _) _) (le_trans hlength (by omega))
    · rw [List.length_cons]
      exact le_trans (Nat.succ_le_succ hlength) (by omega)

theorem length_floatBody_le (magnitude : Magnitude .binary64) (spec : Spec) (code : Option Char) :
    (floatBody magnitude spec code).length ≤ 5 * spec.precision.getD defaultPrecision + 13000 := by
  cases magnitude with
  | finite k => exact length_finiteBody_le k spec code
  | infinite =>
      show 3 ≤ _
      omega
  | nan =>
      show 3 ≤ _
      omega

theorem length_unsignedText_le (x : Binary64) (spec : Spec) :
    (unsignedText x spec).length ≤ 5 * spec.precision.getD defaultPrecision + 13001 := by
  have hbody := length_floatBody_le
    (if spec.code = some '%' then x.scaleBy 100 1 else x).magnitude spec spec.code
  unfold unsignedText
  dsimp only
  generalize floatBody _ spec spec.code = body at hbody ⊢
  have hcase : (if spec.code = some 'E' ∨ spec.code = some 'F' ∨ spec.code = some 'G' then
      body.map Char.toUpper else body).length = body.length := by
    split
    · exact List.length_map _
    · rfl
  split
  · rw [List.length_append, hcase]
    exact Nat.succ_le_succ hbody
  · rw [hcase]
    exact Nat.le_succ_of_le hbody

/-! ## Integers -/

theorem natAbs_lt_of_integer? {v : Value} {z : Int} (hz : v.integer? = some z) :
    z.natAbs < 2 ^ 64 := by
  cases v with
  | bool b =>
      cases hz
      cases b <;> decide
  | int i =>
      cases hz
      have hlow := i.le_toInt
      have hhigh := i.toInt_lt
      omega
  | uint n =>
      cases hz
      exact n.toNat_lt
  | float x => cases hz
  | str s => cases hz

theorem length_digits_radix_le (spec : Spec) {n : Nat} (hn : n < 2 ^ 64) :
    ((radixOf spec).digits n).length ≤ 64 := by
  have hlow : 2 ≤ (radixOf spec).base := (Radix.base_ofCode (spec.code.getD 'd')).1
  have hlt : n < (radixOf spec).base ^ 64 := lt_of_lt_of_le hn (Nat.pow_le_pow_left hlow 64)
  rw [Radix.digits_eq, List.length_map]
  exact Numeral.length_digits_le hlow (by decide) hlt

/-! ## Numbers -/

theorem length_shownDigits_le (parts : NumberParts) (spec : Spec) :
    (parts.shownDigits spec).length ≤ 2 * parts.digits.length := by
  unfold NumberParts.shownDigits
  split
  · omega
  · rw [length_grouped]
    have hdiv := Nat.div_le_self (parts.digits.length - 1) (groupSizeOf spec)
    unfold groupedLength
    omega

theorem length_signText_le (negative : Bool) (sign : Option Sign) :
    (signText negative sign).length ≤ 1 := by
  unfold signText
  split
  · exact le_refl 1
  · split
    · exact le_refl 1
    · exact le_refl 1
    · exact Nat.zero_le 1
    · exact Nat.zero_le 1

theorem length_markOf_le (spec : Spec) : (markOf spec).length ≤ 2 := by
  unfold markOf radixOf Radix.ofCode
  split_ifs
  all_goals decide

/-- A number takes its parts, a sign, and a separator for every digit at most. -/
theorem naturalLength_le (parts : NumberParts) (spec : Spec) :
    parts.naturalLength spec ≤
      1 + parts.baseMark.length + parts.tail.length + 2 * parts.digits.length := by
  have hsign := length_signText_le parts.negative spec.sign
  have hshown := length_shownDigits_le parts spec
  unfold NumberParts.naturalLength NumberParts.otherLength
  omega

/-- Without padding a number takes far fewer characters than can be counted, if its precision is one
that is rendered. -/
theorem naturalLength_lt {v : Value} (h : Shows spec v parts)
    (hprecision : ∀ p ∈ spec.precision, p ≤ 65535) : parts.naturalLength spec < 2 ^ 63 := by
  refine lt_of_le_of_lt (naturalLength_le parts spec) ?_
  cases h with
  | @inBase z digits hz _ hdigits _ =>
      have hlength := length_digits_radix_le spec (natAbs_lt_of_integer? hz)
      have hmark := length_markOf_le spec
      rw [← hdigits] at hlength
      show 1 + (markOf spec).length + 0 + 2 * digits.length < _
      omega
  | codePoint _ _ _ =>
      show 1 + 0 + 1 + 0 < _
      decide
  | @float x _ _ _ _ hmark hdigits htail =>
      have hbody := length_unsignedText_le x spec
      have hcut : parts.digits.length + parts.tail.length = (unsignedText x spec).length := by
        rw [hdigits, htail, ← List.length_append, List.takeWhile_append_dropWhile]
      have hle : spec.precision.getD defaultPrecision ≤ 65535 := by
        cases hspec : spec.precision with
        | none => decide
        | some p => exact hprecision p hspec
      rw [hmark, List.length_nil]
      omega

end Render
end FormatCheck
