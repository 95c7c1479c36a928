import FormatCheck.Proofs.Binary.Nearest

/-!
# Conversion between formats

`Embeds F G` says that `G` has every magnitude of `F`. Then widening is exact, and narrowing what was
widened gives it back. Single precision embeds in double precision.
-/

namespace FormatCheck
namespace Format

variable {F G : Format}

/-- The fields of `G` hold every magnitude of `F`. -/
structure Embeds (F G : Format) : Prop where
  fractionBits_le : F.fractionBits ≤ G.fractionBits
  scale_le : F.scale ≤ G.scale
  overflow_le : F.units F.overflowRank * 2 ^ (G.scale - F.scale) ≤ G.units G.overflowRank

theorem embeds_binary32_binary64 : Embeds binary32 binary64 where
  fractionBits_le := by decide
  scale_le := by decide
  overflow_le := by decide +kernel

/-- A short significand makes a magnitude under every shift. -/
theorem exists_units_eq {m : Nat} (hm : m < 2 * 2 ^ F.fractionBits) (t : Nat) :
    ∃ k, F.units k = m * 2 ^ t := by
  induction t generalizing m with
  | zero =>
      exact ⟨m + 0 * 2 ^ F.fractionBits, units_significand hm.le (Or.inl rfl)⟩
  | succ t ih =>
      rcases Nat.lt_or_ge m (2 ^ F.fractionBits) with hlt | hge
      · -- A bit moves from the shift into the significand.
        rcases ih (m := 2 * m) (by omega) with ⟨k, hk⟩
        exact ⟨k, by rw [hk, Nat.pow_succ]; ring⟩
      · exact ⟨m + (t + 1) * 2 ^ F.fractionBits, units_significand hm.le (Or.inr hge)⟩

theorem Embeds.one_eq (h : Embeds F G) : G.one = F.one * 2 ^ (G.scale - F.scale) := by
  have hscale := h.scale_le
  rw [one, one, ← Nat.pow_add, show F.scale + (G.scale - F.scale) = G.scale by omega]

/-- The rank in the wider format of a magnitude of the narrower one. -/
theorem Embeds.exists_rank (h : Embeds F G) {k : Nat} (hk : k < F.overflowRank) :
    ∃ j, j < G.overflowRank ∧ F.units k * G.one = G.units j * F.one := by
  rcases exists_significand F k with ⟨m, s, hms, hm, hs⟩
  have hwide : m < 2 * 2 ^ G.fractionBits := by
    have hpow : 2 ^ F.fractionBits ≤ 2 ^ G.fractionBits :=
      Nat.pow_le_pow_right (by decide) h.fractionBits_le
    omega
  rcases exists_units_eq hwide (s + (G.scale - F.scale)) with ⟨j, hj⟩
  have hunits : G.units j = F.units k * 2 ^ (G.scale - F.scale) := by
    rw [hj, hms, units_significand hm.le hs, Nat.pow_add, Nat.mul_assoc]
  refine ⟨j, ?_, ?_⟩
  · refine (units_strictMono G).lt_iff_lt.mp (lt_of_lt_of_le ?_ h.overflow_le)
    rw [hunits]
    exact Nat.mul_lt_mul_of_pos_right (units_strictMono F hk) (Nat.two_pow_pos _)
  · rw [hunits, h.one_eq]
    ring

end Format

namespace Magnitude

open Format

variable {F G : Format}

theorem one_pos (F : Format) : 0 < F.one := Nat.two_pow_pos _

theorem ofRank_of_lt {k : Nat} (hk : k < F.overflowRank) : (ofRank k : Magnitude F) = finite ⟨k, hk⟩ :=
  dif_pos hk

theorem ofRank_of_ge {k : Nat} (hk : F.overflowRank ≤ k) : (ofRank k : Magnitude F) = infinite :=
  dif_neg (not_lt.mpr hk)

/-- Widening keeps every magnitude, so narrowing undoes it. -/
theorem convert_convert (h : Embeds F G) (m : Magnitude F) :
    ((m.convert : Magnitude G).convert : Magnitude F) = m := by
  cases m with
  | infinite => rfl
  | nan => rfl
  | finite k =>
      rcases h.exists_rank k.isLt with ⟨j, hj, heq⟩
      have hwide : (finite k : Magnitude F).convert = (finite ⟨j, hj⟩ : Magnitude G) := by
        rw [convert, ofRatio, nearest_eq_of_exact (one_pos F) heq, ofRank_of_lt hj]
      rw [hwide, convert, ofRatio, nearest_eq_of_exact (one_pos G) heq.symm,
        ofRank_of_lt k.isLt]

end Magnitude
end FormatCheck
