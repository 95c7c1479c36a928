import FormatCheck.Json.Source
import FormatCheck.Proofs.Numeral

/-!
# Numerals of any base read back

A numeral of a base up to sixteen, in lower or in upper case and with any number of zeros before it,
is read as its number. Digits are read through `Json.hexValue?`, which takes letters in either case.
-/

namespace FormatCheck
namespace Numeral

/-- The value of a digit of the base. -/
def digitIn? (base : Nat) (c : Char) : Option Nat := (Json.hexValue? c).filter (· < base)

/-- A non-empty text of digits of the base, read as a number. -/
def readIn? (base : Nat) (s : List Char) : Option Nat :=
  if s = [] then none else (s.mapM (digitIn? base)).map (ofDigits base)

/-- A way to write the digits of all bases up to sixteen that reading undoes. -/
def Spells (spell : Nat → Char) : Prop := ∀ d < 16, Json.hexValue? (spell d) = some d

theorem spells_digitChar : Spells digitChar := by
  unfold Spells
  decide

theorem spells_upperDigitChar : Spells upperDigitChar := by
  unfold Spells
  decide

variable {base : Nat} {spell : Nat → Char} {ds : List Nat}

theorem mapM_digitIn? (hspell : Spells spell) (hbase : base ≤ 16) (hds : ∀ d ∈ ds, d < base) :
    (ds.map spell).mapM (digitIn? base) = some ds := by
  induction ds with
  | nil =>
      rfl
  | cons d ds ih =>
      have hd : d < base := hds d List.mem_cons_self
      have hvalue : digitIn? base (spell d) = some d := by
        rw [digitIn?, hspell d (Nat.lt_of_lt_of_le hd hbase)]
        simp [Option.filter, hd]
      have hrest := ih fun e he => hds e (List.mem_cons_of_mem d he)
      rw [List.map_cons, List.mapM_cons, hvalue, hrest]
      rfl

/-- Zeros before a numeral do not change what it is read as. -/
theorem readIn?_zeros_append (hspell : Spells spell) (hzero : spell 0 = '0') (hlow : 1 < base)
    (hbase : base ≤ 16) (zeros n : Nat) :
    readIn? base (List.replicate zeros '0' ++ (digits base n).map spell) = some n := by
  -- The zeros are digits like the others, so the whole text spells one digit list.
  have htext : List.replicate zeros '0' ++ (digits base n).map spell =
      (List.replicate zeros 0 ++ digits base n).map spell := by
    rw [List.map_append, List.map_replicate, hzero]
  have hne : List.replicate zeros '0' ++ (digits base n).map spell ≠ [] := by
    simp [digits_ne_nil]
  have hlt : ∀ d ∈ List.replicate zeros 0 ++ digits base n, d < base := by
    intro d hd
    rcases List.mem_append.mp hd with hfill | hdigit
    · rw [List.eq_of_mem_replicate hfill]
      exact Nat.lt_trans Nat.zero_lt_one hlow
    · exact lt_of_mem_digits hlow hdigit
  have hvalue : ofDigits base (List.replicate zeros 0 ++ digits base n) = n := by
    rw [ofDigits_append, ofDigits_replicate_zero, Nat.zero_mul, Nat.zero_add, ofDigits_digits]
  rw [readIn?, if_neg hne, htext, mapM_digitIn? hspell hbase hlt, Option.map_some, hvalue]

end Numeral
end FormatCheck
