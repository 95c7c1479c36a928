/-!
# Positional numerals

Digits of natural numbers in any base, most significant first, and the text they are written in.
Every number the library writes (widths, fields of a date, escapes, literals, JSON numbers) goes
through this module, so a law about digits is stated once.

`digits_eq` unfolds the accumulating loop into the recurrence on the quotient, and
`ofDigits_digits` says that reading the digits gives the number back.
-/

namespace FormatCheck

-- Powers of naturals and integers are core's in every module. Where Mathlib is in scope its monoid
-- powers would come first, and `2 ^ n` would not be the same term everywhere.
attribute [instance (20000), default_instance (20000)] instPowNat

namespace Numeral

/-! ## Digits and their value -/

/-- Pushes the digits of `n` in base `b` onto `acc`; a base below two leaves `n` as one digit. -/
def digitsOnto (b n : Nat) (acc : List Nat) : List Nat :=
  if n < b ∨ b < 2 then n :: acc else digitsOnto b (n / b) (n % b :: acc)
termination_by n
decreasing_by exact Nat.div_lt_self (by omega) (by omega)

/-- The digits of `n` in base `b`, most significant first; zero has one digit. -/
def digits (b n : Nat) : List Nat := digitsOnto b n []

/-- The value of a digit list in base `b`, most significant digit first. -/
def ofDigits (b : Nat) (ds : List Nat) : Nat := ds.foldl (fun n d => n * b + d) 0

theorem digitsOnto_of_small {b n : Nat} (h : n < b ∨ b < 2) (acc : List Nat) :
    digitsOnto b n acc = n :: acc := by
  rw [digitsOnto, if_pos h]

theorem digitsOnto_of_large {b n : Nat} (h : ¬(n < b ∨ b < 2)) (acc : List Nat) :
    digitsOnto b n acc = digitsOnto b (n / b) (n % b :: acc) := by
  rw [digitsOnto, if_neg h]

theorem digitsOnto_eq (b n : Nat) (acc : List Nat) : digitsOnto b n acc = digits b n ++ acc := by
  induction n using Nat.strongRecOn generalizing acc with
  | _ n ih =>
    by_cases h : n < b ∨ b < 2
    · simp [digits, digitsOnto_of_small h]
    · have lt : n / b < n := Nat.div_lt_self (by omega) (by omega)
      rw [digits, digitsOnto_of_large h, digitsOnto_of_large h, ih _ lt, ih _ lt [n % b]]
      simp

theorem digits_eq (b n : Nat) :
    digits b n = if n < b ∨ b < 2 then [n] else digits b (n / b) ++ [n % b] := by
  split
  · next h => exact digitsOnto_of_small h []
  · next h => rw [digits, digitsOnto_of_large h, digitsOnto_eq]

theorem ofDigits_append_singleton (b : Nat) (ds : List Nat) (d : Nat) :
    ofDigits b (ds ++ [d]) = ofDigits b ds * b + d := by
  simp [ofDigits]

/-- Reading the digits of a number gives the number. -/
theorem ofDigits_digits (b n : Nat) : ofDigits b (digits b n) = n := by
  induction n using Nat.strongRecOn with
  | _ n ih =>
    rw [digits_eq]
    split
    · simp [ofDigits]
    · rw [ofDigits_append_singleton, ih _ (Nat.div_lt_self (by omega) (by omega))]
      exact Nat.div_add_mod' n b

/-! ## Text -/

def digitChar (d : Nat) : Char :=
  if d < 10 then Char.ofNat (48 + d) else Char.ofNat (87 + d)

/-- The character of a digit: `0`–`9`, then upper-case letters. -/
def upperDigitChar (d : Nat) : Char :=
  if d < 10 then Char.ofNat (48 + d) else Char.ofNat (55 + d)

/-- The numeral of `n` in base `b`, in lower case. -/
def text (b n : Nat) : List Char := (digits b n).map digitChar

/-- The numeral of `n` in base `b`, in upper case. -/
def upperText (b n : Nat) : List Char := (digits b n).map upperDigitChar

/-- A text brought to at least `width` characters by zeros on its left. -/
def zeroPad (width : Nat) (s : List Char) : List Char :=
  List.replicate (width - s.length) '0' ++ s

/-- The decimal numeral of a natural number. -/
def decimal (n : Nat) : List Char := text 10 n

/-- The decimal numeral of an integer, a minus sign before a negative one. -/
def signedDecimal (z : Int) : List Char :=
  if z < 0 then '-' :: decimal z.natAbs else decimal z.natAbs

def showNat (n : Nat) : String := String.ofList (decimal n)

def showInt (z : Int) : String := String.ofList (signedDecimal z)

/-! ## Reading -/

/-- The value of an ASCII decimal digit. -/
def digitValue (c : Char) : Nat := c.toNat - 48

/-- The value of a run of ASCII decimal digits. -/
def readDecimal (s : List Char) : Nat := ofDigits 10 (s.map digitValue)

/-- A non-empty text of ASCII digits alone, read as a number. -/
def natural? (s : List Char) : Option Nat :=
  if s ≠ [] ∧ s.all Char.isDigit then some (readDecimal s) else none

/-- An optional sign before a non-empty run of ASCII digits, read as an integer. -/
def integer? : List Char → Option Int
  | '-' :: s => (natural? s).map fun n => -(n : Int)
  | '+' :: s => (natural? s).map fun n => (n : Int)
  | s => (natural? s).map fun n => (n : Int)

end Numeral
end FormatCheck
