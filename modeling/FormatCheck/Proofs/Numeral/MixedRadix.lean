import FormatCheck.Numeral
import Mathlib.Algebra.BigOperators.Group.List.Basic

/-!
# Mixed radix

A counter over some sizes, each digit below its size and the last one turning fastest. Below the
product of the sizes a number has digits, the digits have a number, and greater numbers have
lexicographically greater digits.
-/

namespace FormatCheck
namespace Numeral

/-- The digits of a number in the mixed radix of some sizes, the first most significant: each is
counted in units of the product of the sizes after its own. -/
def mixedDigits : List Nat → Nat → List Nat
  | [], _ => []
  | size :: sizes, i => i / sizes.prod % size :: mixedDigits sizes i

/-- The number that has these digits. -/
def ofMixedDigits : List Nat → List Nat → Nat
  | _ :: sizes, d :: ds => d * sizes.prod + ofMixedDigits sizes ds
  | _, _ => 0

/-- One digit for each size, below it. -/
def AreMixedDigits (sizes ds : List Nat) : Prop := List.Forall₂ (· < ·) ds sizes

variable {sizes ds : List Nat} {i j : Nat}

/-- Multiples of the whole product show in no digit. -/
theorem mixedDigits_mod (sizes : List Nat) (i : Nat) :
    mixedDigits sizes (i % sizes.prod) = mixedDigits sizes i := by
  induction sizes generalizing i with
  | nil =>
      rfl
  | cons size sizes ih =>
      have hhead : i % (size * sizes.prod) / sizes.prod % size = i / sizes.prod % size := by
        rw [Nat.mod_mul_left_div_self, Nat.mod_mod]
      have htail : mixedDigits sizes (i % (size * sizes.prod)) = mixedDigits sizes i := by
        rw [← ih, Nat.mod_mul_left_mod, ih]
      rw [List.prod_cons, mixedDigits, mixedDigits, hhead, htail]

/-- The first digit of a number in range is the quotient by the other sizes, and the others are
those of the remainder. -/
theorem mixedDigits_cons {size : Nat} (h : i < size * sizes.prod) :
    mixedDigits (size :: sizes) i = i / sizes.prod :: mixedDigits sizes (i % sizes.prod) := by
  have hhead : i / sizes.prod < size := Nat.div_lt_of_lt_mul (Nat.mul_comm size _ ▸ h)
  rw [mixedDigits, Nat.mod_eq_of_lt hhead, mixedDigits_mod]

theorem prod_pos_of_lt {size : Nat} (h : i < size * sizes.prod) : 0 < sizes.prod :=
  Nat.pos_of_mul_pos_left (Nat.lt_of_le_of_lt (Nat.zero_le i) h)

theorem ofMixedDigits_mixedDigits (h : i < sizes.prod) :
    ofMixedDigits sizes (mixedDigits sizes i) = i := by
  induction sizes generalizing i with
  | nil =>
      -- The empty product is one, and the only number below it is zero.
      exact (Nat.lt_one_iff.mp h).symm
  | cons size sizes ih =>
      rw [List.prod_cons] at h
      have hrest : i % sizes.prod < sizes.prod := Nat.mod_lt i (prod_pos_of_lt h)
      calc
        ofMixedDigits (size :: sizes) (mixedDigits (size :: sizes) i)
            = i / sizes.prod * sizes.prod
                + ofMixedDigits sizes (mixedDigits sizes (i % sizes.prod)) := by
              rw [mixedDigits_cons h, ofMixedDigits]
        _ = i / sizes.prod * sizes.prod + i % sizes.prod := by
              rw [ih hrest]
        _ = i := Nat.div_add_mod' i sizes.prod

theorem ofMixedDigits_lt (h : AreMixedDigits sizes ds) : ofMixedDigits sizes ds < sizes.prod := by
  induction h with
  | nil =>
      exact Nat.one_pos
  | @cons d size ds sizes hd _ ih =>
      calc
        d * sizes.prod + ofMixedDigits sizes ds < d * sizes.prod + sizes.prod :=
          Nat.add_lt_add_left ih _
        _ = (d + 1) * sizes.prod := (Nat.succ_mul d sizes.prod).symm
        _ ≤ size * sizes.prod := Nat.mul_le_mul_right _ hd
        _ = (size :: sizes).prod := List.prod_cons.symm

theorem mixedDigits_ofMixedDigits (h : AreMixedDigits sizes ds) :
    mixedDigits sizes (ofMixedDigits sizes ds) = ds := by
  induction h with
  | nil =>
      rfl
  | @cons d size ds sizes hd hds ih =>
      have hrest : ofMixedDigits sizes ds < sizes.prod := ofMixedDigits_lt hds
      have hpos : 0 < sizes.prod := Nat.lt_of_le_of_lt (Nat.zero_le _) hrest
      have hhead : (d * sizes.prod + ofMixedDigits sizes ds) / sizes.prod = d := by
        rw [Nat.mul_comm, Nat.mul_add_div hpos, Nat.div_eq_of_lt hrest, Nat.add_zero]
      have htail : (d * sizes.prod + ofMixedDigits sizes ds) % sizes.prod
          = ofMixedDigits sizes ds := by
        rw [Nat.mul_add_mod_self_right, Nat.mod_eq_of_lt hrest]
      have hlt : ofMixedDigits (size :: sizes) (d :: ds) < size * sizes.prod :=
        ofMixedDigits_lt (List.Forall₂.cons hd hds)
      rw [mixedDigits_cons hlt, ofMixedDigits, hhead, htail, ih]

/-- A greater number has lexicographically greater digits. -/
theorem mixedDigits_lt_mixedDigits (hij : i < j) (hj : j < sizes.prod) :
    mixedDigits sizes i < mixedDigits sizes j := by
  induction sizes generalizing i j with
  | nil =>
      exact absurd (Nat.lt_of_le_of_lt (Nat.succ_le_of_lt hij) hj) (Nat.not_lt.mpr (by simp))
  | cons size sizes ih =>
      rw [List.prod_cons] at hj
      have hpos : 0 < sizes.prod := prod_pos_of_lt hj
      rw [mixedDigits_cons hj, mixedDigits_cons (Nat.lt_trans hij hj), List.cons_lt_cons_iff]
      -- The first digits decide unless they are the same; then the remainders do.
      rcases Nat.lt_or_eq_of_le (Nat.div_le_div_right (Nat.le_of_lt hij) :
        i / sizes.prod ≤ j / sizes.prod) with hlt | heq
      · exact Or.inl hlt
      · refine Or.inr ⟨heq, ih ?_ (Nat.mod_lt j hpos)⟩
        have hi := Nat.div_add_mod' i sizes.prod
        have hj := Nat.div_add_mod' j sizes.prod
        rw [heq] at hi
        omega

end Numeral
end FormatCheck
