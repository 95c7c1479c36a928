import Mathlib.Data.Nat.Digits.Lemmas
import FormatCheck.Numeral

/-!
# Laws of positional numerals

Digit lists are kept most significant first, the reverse of Mathlib's `Nat.digits`; values, bounds
and lengths carry over through `ofDigits_eq_reverse` and `digits_eq_reverse`.

The second half is about decimal text: a numeral reads back as its number, with zeros before it or
without, and a signed one as its integer.
-/

namespace FormatCheck
namespace Numeral

variable {b n : Nat}

/-! ## Digit lists -/

theorem ofDigits_eq_reverse (b : Nat) (ds : List Nat) :
    ofDigits b ds = Nat.ofDigits b ds.reverse := by
  -- A fold meets the last digit last, so the list is taken apart from its end.
  induction ds using List.reverseRecOn with
  | nil => rfl
  | append_singleton ds d ih =>
      rw [ofDigits_append_singleton, ih]
      simp only [List.reverse_append, List.reverse_singleton, List.singleton_append,
        Nat.ofDigits_cons]
      ring

theorem digits_eq_reverse (hb : 1 < b) (hn : n ≠ 0) : digits b n = (Nat.digits b n).reverse := by
  -- Both sides split off the last digit and go on with the quotient.
  induction n using Nat.strongRecOn with
  | _ n ih =>
      rw [digits_eq, Nat.digits_eq_cons_digits_div hb hn, List.reverse_cons]
      by_cases h : n < b
      · simp [h, Nat.div_eq_of_lt h, Nat.mod_eq_of_lt h]
      · have hlt : n / b < n := Nat.div_lt_self (Nat.pos_of_ne_zero hn) hb
        have hne : n / b ≠ 0 := (Nat.div_pos (not_lt.mp h) (by omega)).ne'
        rw [if_neg (by omega), ih _ hlt hne]

theorem ofDigits_append (b : Nat) (xs ys : List Nat) :
    ofDigits b (xs ++ ys) = ofDigits b xs * b ^ ys.length + ofDigits b ys := by
  rw [ofDigits_eq_reverse, List.reverse_append, Nat.ofDigits_append, ofDigits_eq_reverse,
    ofDigits_eq_reverse, List.length_reverse]
  ring

@[simp] theorem ofDigits_replicate_zero (b k : Nat) : ofDigits b (List.replicate k 0) = 0 := by
  rw [ofDigits_eq_reverse, List.reverse_replicate, Nat.ofDigits_replicate_zero]

theorem digits_ne_nil (b n : Nat) : digits b n ≠ [] := by
  rw [digits_eq]
  split <;> simp

theorem lt_of_mem_digits {d : Nat} (hb : 1 < b) (hd : d ∈ digits b n) : d < b := by
  by_cases hn : n = 0
  · subst hn
    have hz : d = 0 := by simpa [digits_eq b 0, show 0 < b by omega] using hd
    omega
  · rw [digits_eq_reverse hb hn, List.mem_reverse] at hd
    exact Nat.digits_lt_base hb hd

theorem lt_pow_length_digits (hb : 1 < b) (n : Nat) : n < b ^ (digits b n).length := by
  have hlt : ofDigits b (digits b n) < b ^ (digits b n).length := by
    rw [ofDigits_eq_reverse, ← List.length_reverse]
    refine Nat.ofDigits_lt_base_pow_length hb ?_
    intro d hd
    exact lt_of_mem_digits hb (List.mem_reverse.mp hd)
  rwa [ofDigits_digits] at hlt

theorem pow_length_digits_le (hb : 1 < b) (hn : n ≠ 0) : b ^ ((digits b n).length - 1) ≤ n := by
  rw [digits_eq_reverse hb hn, List.length_reverse, ← Nat.lt_digits_length_iff hb]
  have hpos : 0 < (Nat.digits b n).length :=
    List.length_pos_iff.mpr (Nat.digits_ne_nil_iff_ne_zero.mpr hn)
  omega

/-- A digit list without a leading zero is the digit list of its value. -/
theorem digits_ofDigits (hb : 1 < b) {ds : List Nat} (hne : ds ≠ []) (hlt : ∀ d ∈ ds, d < b)
    (hhead : ds.head? ≠ some 0) : digits b (ofDigits b ds) = ds := by
  have hdigits : Nat.digits b (Nat.ofDigits b ds.reverse) = ds.reverse := by
    refine Nat.digits_ofDigits b hb ds.reverse ?_ ?_
    · intro d hd
      exact hlt d (List.mem_reverse.mp hd)
    · intro hreverse hlast
      apply hhead
      rw [← hlast, List.head?_eq_some_head hne, List.getLast_reverse]
  -- Zero has a digit here and none in Mathlib, but its one digit would be a leading zero.
  have hne0 : ofDigits b ds ≠ 0 := by
    intro hzero
    rw [← ofDigits_eq_reverse, hzero, Nat.digits_zero] at hdigits
    exact hne (List.reverse_eq_nil_iff.mp hdigits.symm)
  rw [digits_eq_reverse hb hne0, ofDigits_eq_reverse, hdigits, List.reverse_reverse]

/-- A number below a power of the base has no more digits than the exponent says. -/
theorem length_digits_le (hb : 1 < b) {width : Nat} (hwidth : 0 < width) (hn : n < b ^ width) :
    (digits b n).length ≤ width := by
  -- Zero has one digit, any other number as many as the power above it has zeros.
  by_cases hzero : n = 0
  · rw [hzero, digits_eq, if_pos (Or.inl (Nat.zero_lt_of_lt hb))]
    exact hwidth
  · have hlow := pow_length_digits_le hb hzero
    have hlt := (Nat.pow_lt_pow_iff_right hb).mp (Nat.lt_of_le_of_lt hlow hn)
    omega

/-- A numeral below a power of the base is padded to as many characters as the exponent says. -/
theorem length_zeroPad_text (hb : 1 < b) {width : Nat} (hwidth : 0 < width)
    (hn : n < b ^ width) : (zeroPad width (text b n)).length = width := by
  rw [zeroPad, text, List.length_append, List.length_replicate, List.length_map]
  exact Nat.sub_add_cancel (length_digits_le hb hwidth hn)

/-! ## Decimal text -/

theorem isDigit_digitChar : ∀ d < 10, (digitChar d).isDigit = true := by
  decide

theorem digitValue_digitChar : ∀ d < 10, digitValue (digitChar d) = d := by
  decide

theorem isDigit_of_mem_decimal {c : Char} (hc : c ∈ decimal n) : c.isDigit = true := by
  rcases List.mem_map.mp hc with ⟨d, hd, rfl⟩
  exact isDigit_digitChar d (lt_of_mem_digits (by decide) hd)

theorem decimal_ne_nil (n : Nat) : decimal n ≠ [] := by
  simpa [decimal, text] using digits_ne_nil 10 n

theorem readDecimal_decimal (n : Nat) : readDecimal (decimal n) = n := by
  have hmap : (decimal n).map digitValue = digits 10 n := by
    rw [decimal, text, List.map_map]
    refine (List.map_congr_left fun d hd => ?_).trans (List.map_id _)
    exact digitValue_digitChar d (lt_of_mem_digits (by decide) hd)
  rw [readDecimal, hmap, ofDigits_digits]

theorem digitValue_lt {c : Char} (hc : c.isDigit = true) : digitValue c < 10 := by
  have hbounds : 48 ≤ c.toNat ∧ c.toNat ≤ 57 := Char.isDigit_iff_toNat.mp hc
  unfold digitValue
  omega

theorem digitChar_digitValue {c : Char} (hc : c.isDigit = true) : digitChar (digitValue c) = c := by
  have hbounds : 48 ≤ c.toNat ∧ c.toNat ≤ 57 := Char.isDigit_iff_toNat.mp hc
  have hlt : digitValue c < 10 := digitValue_lt hc
  have hsum : 48 + digitValue c = c.toNat := by
    unfold digitValue
    omega
  rw [digitChar, if_pos hlt, hsum, Char.ofNat_toNat]

/-- Only the numeral of zero begins with a zero. -/
theorem eq_zero_of_head?_decimal (h : (decimal n).head? = some '0') : n = 0 := by
  rw [decimal, text, List.head?_map, Option.map_eq_some_iff] at h
  rcases h with ⟨d, hd, hchar⟩
  have hlt : d < 10 := lt_of_mem_digits (by decide) (List.mem_of_mem_head? hd)
  have hzero : d = 0 := by
    rw [← digitValue_digitChar d hlt, hchar]
    rfl
  by_contra hn
  rw [digits_eq_reverse (by decide) hn, List.head?_reverse, hzero] at hd
  have hlast := Nat.getLast_digit_ne_zero 10 hn
  exact hlast (List.getLast_of_mem_getLast? hd)

/-- A numeral without a leading zero is the numeral of its value. -/
theorem decimal_readDecimal {s : List Char} (hne : s ≠ []) (hs : ∀ c ∈ s, c.isDigit = true)
    (hhead : s.head? ≠ some '0') : decimal (readDecimal s) = s := by
  have hdigits : digits 10 (readDecimal s) = s.map digitValue := by
    refine digits_ofDigits (by decide) (by simpa using hne) ?_ ?_
    · intro d hd
      rcases List.mem_map.mp hd with ⟨c, hc, rfl⟩
      exact digitValue_lt (hs c hc)
    · intro hzero
      rw [List.head?_map, Option.map_eq_some_iff] at hzero
      rcases hzero with ⟨c, hc, hvalue⟩
      have hchar : c = '0' := by
        rw [← digitChar_digitValue (hs c (List.mem_of_mem_head? hc)), hvalue]
        rfl
      exact hhead (hchar ▸ hc)
  have hmap : (s.map digitValue).map digitChar = s := by
    rw [List.map_map]
    refine (List.map_congr_left fun c hc => ?_).trans (List.map_id _)
    exact digitChar_digitValue (hs c hc)
  rw [decimal, text, hdigits, hmap]

theorem readDecimal_append (s t : List Char) :
    readDecimal (s ++ t) = readDecimal s * 10 ^ t.length + readDecimal t := by
  simp [readDecimal, ofDigits_append]

theorem readDecimal_replicate_zero (k : Nat) : readDecimal (List.replicate k '0') = 0 := by
  rw [readDecimal, List.map_replicate]
  exact ofDigits_replicate_zero 10 k

/-- Zeros before a numeral do not change its value. -/
theorem readDecimal_zeroPad (width : Nat) (s : List Char) :
    readDecimal (zeroPad width s) = readDecimal s := by
  rw [zeroPad, readDecimal_append, readDecimal_replicate_zero, Nat.zero_mul, Nat.zero_add]

/-! ## Order -/

theorem readDecimal_lt {s : List Char} (hs : ∀ c ∈ s, c.isDigit = true) :
    readDecimal s < 10 ^ s.length := by
  rw [readDecimal, ofDigits_eq_reverse]
  have hlt : ∀ d ∈ (s.map digitValue).reverse, d < 10 := by
    intro d hd
    rcases List.mem_map.mp (List.mem_reverse.mp hd) with ⟨c, hc, rfl⟩
    exact digitValue_lt (hs c hc)
  simpa using Nat.ofDigits_lt_base_pow_length (by decide) hlt

theorem readDecimal_cons (c : Char) (s : List Char) :
    readDecimal (c :: s) = digitValue c * 10 ^ s.length + readDecimal s := by
  have hsingle : readDecimal [c] = digitValue c := by
    simp [readDecimal, ofDigits]
  rw [← List.singleton_append, readDecimal_append, hsingle]

/-- Of two numerals with equally many digits the one with the smaller value comes first. -/
theorem lt_of_readDecimal_lt {s t : List Char} (hlength : s.length = t.length)
    (hs : ∀ c ∈ s, c.isDigit = true) (ht : ∀ c ∈ t, c.isDigit = true)
    (h : readDecimal s < readDecimal t) : s < t := by
  induction s generalizing t with
  | nil =>
      obtain rfl : t = [] := List.length_eq_zero_iff.mp hlength.symm
      exact absurd h (Nat.lt_irrefl _)
  | cons c s ih =>
      obtain ⟨d, t, rfl⟩ : ∃ d t', t = d :: t' :=
        List.exists_cons_of_length_eq_add_one hlength.symm
      rcases List.forall_mem_cons.mp hs with ⟨hc, hs⟩
      rcases List.forall_mem_cons.mp ht with ⟨hd, ht⟩
      have hrest : s.length = t.length := Nat.succ.inj hlength
      rw [readDecimal_cons, readDecimal_cons, hrest] at h
      rw [List.cons_lt_cons_iff]
      rcases Nat.lt_trichotomy (digitValue c) (digitValue d) with hlt | heq | hgt
      · refine Or.inl ?_
        change c.toNat < d.toNat
        unfold digitValue at hlt
        omega
      · refine Or.inr ⟨?_, ih hrest hs ht ?_⟩
        · rw [← digitChar_digitValue hc, heq, digitChar_digitValue hd]
        · rw [heq] at h
          exact Nat.lt_of_add_lt_add_left h
      · -- A greater first digit outweighs all that follows.
        have hvalue := Nat.mul_le_mul_right (10 ^ t.length) (Nat.succ_le_of_lt hgt)
        have hlt := readDecimal_lt ht
        rw [Nat.succ_mul] at hvalue
        omega

theorem isDigit_of_mem_zeroPad {width : Nat} {c : Char} (hc : c ∈ zeroPad width (decimal n)) :
    c.isDigit = true := by
  rcases List.mem_append.mp hc with hzero | hdigit
  · rw [List.eq_of_mem_replicate hzero]
    rfl
  · exact isDigit_of_mem_decimal hdigit

theorem width_pos_of_lt {width m : Nat} (hmn : m < n) (hn : n < 10 ^ width) : 0 < width := by
  refine Nat.pos_of_ne_zero ?_
  rintro rfl
  omega

/-- Numerals padded to one width are in the order of their numbers. -/
theorem zeroPad_decimal_lt {width m : Nat} (hmn : m < n) (hn : n < 10 ^ width) :
    zeroPad width (decimal m) < zeroPad width (decimal n) := by
  have hwidth := width_pos_of_lt hmn hn
  have hlength : ∀ k < 10 ^ width, (zeroPad width (decimal k)).length = width :=
    fun k hk => length_zeroPad_text (by decide) hwidth hk
  refine lt_of_readDecimal_lt ?_ (fun _ => isDigit_of_mem_zeroPad)
    (fun _ => isDigit_of_mem_zeroPad) ?_
  · rw [hlength m (Nat.lt_trans hmn hn), hlength n hn]
  · simpa only [readDecimal_zeroPad, readDecimal_decimal] using hmn

/-! ## Reading back -/

theorem natural?_of_digits {s : List Char} (hne : s ≠ []) (hs : ∀ c ∈ s, c.isDigit = true) :
    natural? s = some (readDecimal s) := by
  rw [natural?, if_pos ⟨hne, List.all_eq_true.mpr hs⟩]

theorem natural?_eq_some_iff {s : List Char} :
    natural? s = some n ↔ s ≠ [] ∧ (∀ c ∈ s, c.isDigit = true) ∧ readDecimal s = n := by
  simp [natural?, and_assoc]

theorem natural?_decimal (n : Nat) : natural? (decimal n) = some n := by
  rw [natural?_of_digits (decimal_ne_nil n) fun _ => isDigit_of_mem_decimal,
    readDecimal_decimal]

theorem natural?_zeroPad_decimal (width n : Nat) : natural? (zeroPad width (decimal n)) = some n := by
  have hne : zeroPad width (decimal n) ≠ [] := by
    simp [zeroPad, decimal_ne_nil]
  rw [natural?_of_digits hne fun _ => isDigit_of_mem_zeroPad, readDecimal_zeroPad,
    readDecimal_decimal]

theorem not_isDigit_minus : Char.isDigit '-' = false := by decide

theorem not_isDigit_plus : Char.isDigit '+' = false := by decide

theorem integer?_minus (s : List Char) :
    integer? ('-' :: s) = (natural? s).map (fun n : Nat => -(n : Int)) := by
  cases h : natural? s <;> simp [integer?, h]

theorem integer?_plus (s : List Char) :
    integer? ('+' :: s) = (natural? s).map (fun n : Nat => (n : Int)) := by
  cases h : natural? s <;> simp [integer?, h]

/-- Without a sign an integer is a natural number. -/
theorem integer?_of_digits {s : List Char} (hne : s ≠ []) (hs : ∀ c ∈ s, c.isDigit = true) :
    integer? s = some (readDecimal s : Int) := by
  unfold integer?
  split
  -- A sign at the front would have to be a digit.
  · simpa [not_isDigit_minus] using hs '-'
  · simpa [not_isDigit_plus] using hs '+'
  · rw [natural?_of_digits hne hs]
    rfl

/-- What is read as an integer is a run of digits, with a sign before it or without. -/
theorem exists_of_integer? {s : List Char} {z : Int} (h : integer? s = some z) :
    ∃ digits n, natural? digits = some n ∧
      (s = '-' :: digits ∧ z = -(n : Int) ∨ (s = '+' :: digits ∨ s = digits) ∧ z = (n : Int)) := by
  unfold integer? at h
  split at h
  · next digits =>
    cases hn : natural? digits with
    | none => simp [hn] at h
    | some n => exact ⟨digits, n, hn, Or.inl ⟨rfl, by simpa [hn, eq_comm] using h⟩⟩
  · next digits =>
    cases hn : natural? digits with
    | none => simp [hn] at h
    | some n => exact ⟨digits, n, hn, Or.inr ⟨Or.inl rfl, by simpa [hn, eq_comm] using h⟩⟩
  · cases hn : natural? s with
    | none => simp [hn] at h
    | some n => exact ⟨s, n, hn, Or.inr ⟨Or.inr rfl, by simpa [hn, eq_comm] using h⟩⟩

/-- The numeral of an integer reads back as the integer. -/
theorem integer?_signedDecimal (z : Int) : integer? (signedDecimal z) = some z := by
  unfold signedDecimal
  split
  · next hz =>
    have habs : -(z.natAbs : Int) = z := by omega
    rw [integer?_minus, natural?_decimal, Option.map_some, habs]
  · next hz =>
    have habs : (z.natAbs : Int) = z := by omega
    rw [integer?_of_digits (decimal_ne_nil _) fun _ => isDigit_of_mem_decimal,
      readDecimal_decimal, habs]

end Numeral
end FormatCheck
