import FormatCheck.Numeral

/-!
# Signed 64-bit counters

Positions and lengths are computed with signed numbers of 64 bits. `counter?` is a number as such a
counter holds it, and nothing where it leaves the range; `signed` is what an unsigned number of 64
bits becomes when it is counted with.
-/

namespace FormatCheck
namespace Counter

/-- Whether a signed 64-bit counter can hold a number. -/
def Fits (z : Int) : Prop := -2 ^ 63 ≤ z ∧ z < 2 ^ 63

instance (z : Int) : Decidable (Fits z) := inferInstanceAs (Decidable (-2 ^ 63 ≤ z ∧ z < 2 ^ 63))

/-- A number as a counter holds it. -/
def counter? (z : Int) : Option Int := if Fits z then some z else none

/-- An unsigned 64-bit number as a counter: its upper half is negative. -/
def signed (n : Nat) : Int := if n < 2 ^ 63 then n else (n : Int) - 2 ^ 64

theorem counter?_eq_some {z : Int} (h : Fits z) : counter? z = some z := if_pos h

theorem counter?_eq_some_iff {z w : Int} : counter? z = some w ↔ Fits z ∧ z = w := by
  unfold counter?
  split
  · next h => simp [h]
  · next h => simp [h]

theorem signed_of_lt {n : Nat} (h : n < 2 ^ 63) : signed n = n := if_pos h

theorem signed_neg {n : Nat} (hlow : ¬n < 2 ^ 63) (hhigh : n < 2 ^ 64) : signed n < 0 := by
  rw [signed, if_neg hlow]
  omega

end Counter
end FormatCheck
