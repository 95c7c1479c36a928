import FormatCheck.Decimal.Layout
import FormatCheck.Proofs.Decimal.Shortest
import FormatCheck.Proofs.Text.Run

/-!
# Layouts read back

`Denotes s v` says that the text `s` is a decimal numeral of value `v`: digits, perhaps a point with
digits or without, perhaps an exponent. A `Written` numeral is such a text by its parts, and its
value is said of the parts alone, `(whole + 0.f₁f₂f₃…) × 10 ^ e`.

A layout is a written numeral that shows the digits of the expansion between zeros, the point where
the expansion has it (`Laid`). So it denotes the value of the expansion in every style
(`denotes_layout`), and as whatever denotes a value is read as it (`Denotes.readScientific?`), the
default text of a magnitude is read as that magnitude.
-/

namespace FormatCheck
namespace Decimal

open Text (Stops stops_nil stops_cons takeWhile_run dropWhile_run)

/-! ## Numerals -/

/-- Digits with a point after the first few; a point that nothing follows may be left out. -/
def pointText (keepPoint : Bool) (whole fraction : List (Fin 10)) : List Char :=
  digitText whole
    ++ if keepPoint = false ∧ fraction = [] then [] else '.' :: digitText fraction

/-- `s` is a decimal numeral, with an exponent or without, of value `v`. -/
def Denotes (s : List Char) (v : ℚ) : Prop :=
  ∃ (keepPoint : Bool) (whole fraction : List (Fin 10)) (tail : List Char) (e : Int),
    whole ≠ [] ∧ s = pointText keepPoint whole fraction ++ tail ∧
      (tail = [] ∧ e = 0 ∨ tail = exponentText e) ∧
      value ⟨whole ++ fraction, whole.length⟩ * 10 ^ e = v

@[simp] theorem length_digitText (ds : List (Fin 10)) : (digitText ds).length = ds.length :=
  List.length_map _

theorem digitText_append (xs ys : List (Fin 10)) :
    digitText (xs ++ ys) = digitText xs ++ digitText ys :=
  List.map_append

theorem isDigit_of_mem_digitText {ds : List (Fin 10)} {c : Char} (hc : c ∈ digitText ds) :
    c.isDigit = true := by
  rcases List.mem_map.mp hc with ⟨d, _, rfl⟩
  exact Numeral.isDigit_digitChar d d.isLt

theorem readDecimal_digitText (ds : List (Fin 10)) :
    Numeral.readDecimal (digitText ds) = Numeral.ofDigits 10 (ds.map Fin.val) := by
  rw [Numeral.readDecimal, digitText, List.map_map]
  refine congrArg _ (List.map_congr_left fun d _ => ?_)
  exact Numeral.digitValue_digitChar d d.isLt

theorem readExponent?_exponentText (e : Int) : readExponent? (exponentText e) = some e := by
  rw [exponentText, readExponent?, if_pos (Or.inl rfl)]
  split
  · next he =>
    have habs : -(e.natAbs : Int) = e := by omega
    rw [Numeral.integer?_minus, Numeral.natural?_zeroPad_decimal, Option.map_some, habs]
  · next he =>
    have habs : (e.natAbs : Int) = e := by omega
    rw [Numeral.integer?_plus, Numeral.natural?_zeroPad_decimal, Option.map_some, habs]

/-- An exponent has a sign and at least two digits, that read as it. -/
theorem exists_exponentText (e : Int) :
    ∃ (sign : Char) (places : List Char), exponentText e = 'e' :: sign :: places ∧
      (sign = '+' ∨ sign = '-') ∧ 2 ≤ places.length ∧ (∀ c ∈ places, c.isDigit = true) ∧
      Numeral.integer? (sign :: places) = some e := by
  refine ⟨_, _, rfl, ?_, ?_, ?_, readExponent?_exponentText e⟩
  · split
    · exact Or.inr rfl
    · exact Or.inl rfl
  · rw [Numeral.zeroPad, List.length_append, List.length_replicate]
    omega
  · intro c hc
    rcases List.mem_append.mp hc with hzero | hdecimal
    · rw [List.eq_of_mem_replicate hzero]
      rfl
    · exact Numeral.isDigit_of_mem_decimal hdecimal

/-- The reader takes a numeral apart where it was put together. -/
theorem readScientific?_pointText (keepPoint : Bool) {whole : List (Fin 10)}
    (fraction : List (Fin 10)) {tail : List Char} {e : Int} (hwhole : whole ≠ [])
    (hdigit : Stops Char.isDigit tail) (hpoint : tail.head? ≠ some '.')
    (he : readExponent? tail = some e) :
    readScientific? (pointText keepPoint whole fraction ++ tail) =
      some ⟨Numeral.ofDigits 10 ((whole ++ fraction).map Fin.val), e - fraction.length⟩ := by
  have hw : ∀ c ∈ digitText whole, c.isDigit = true := fun _ => isDigit_of_mem_digitText
  have hf : ∀ c ∈ digitText fraction, c.isDigit = true := fun _ => isDigit_of_mem_digitText
  have hne : digitText whole ≠ [] := by simpa [digitText] using hwhole
  unfold pointText
  split
  · next hdrop =>
    rcases hdrop with ⟨_, rfl⟩
    rw [List.append_nil]
    unfold readScientific?
    rw [takeWhile_run hw hdigit, dropWhile_run hw hdigit]
    dsimp only
    split
    · exact absurd rfl hpoint
    · rw [if_neg fun h => hne h.1, he, Option.map_some, List.append_nil, List.append_nil,
        readDecimal_digitText]
      rfl
  · have hstop : Stops Char.isDigit ('.' :: digitText fraction ++ tail) :=
      stops_cons (by decide) _
    rw [List.append_assoc]
    unfold readScientific?
    rw [takeWhile_run hw hstop, dropWhile_run hw hstop]
    simp only [List.cons_append]
    rw [takeWhile_run hf hdigit, dropWhile_run hf hdigit, if_neg fun h => hne h.1, he,
      Option.map_some, ← digitText_append, readDecimal_digitText, length_digitText]

/-- Whatever denotes a value is read as that value. -/
theorem Denotes.readScientific? {s : List Char} {v : ℚ} (h : Denotes s v) :
    ∃ x, Decimal.readScientific? s = some x ∧ x.value = v := by
  rcases h with ⟨keepPoint, whole, fraction, tail, e, hwhole, rfl, htail, rfl⟩
  have hvalue : Scientific.value
      ⟨Numeral.ofDigits 10 ((whole ++ fraction).map Fin.val), e - fraction.length⟩ =
        value ⟨whole ++ fraction, whole.length⟩ * 10 ^ e := by
    simp only [value, toScientific, Scientific.value, List.length_append]
    rw [mul_assoc, ← zpow_add₀ (by norm_num)]
    congr 2
    push_cast
    ring
  refine ⟨_, ?_, hvalue⟩
  rcases htail with ⟨rfl, rfl⟩ | rfl
  · exact readScientific?_pointText keepPoint fraction hwhole (stops_nil _) (by simp) rfl
  · exact readScientific?_pointText keepPoint fraction hwhole (stops_cons (by decide) _)
      (by simp [exponentText]) (readExponent?_exponentText e)

theorem toNat_lt_of_isDigit {c : Char} (hc : c.isDigit = true) : c.toNat < 128 := by
  simp only [Char.isDigit, Bool.and_eq_true, decide_eq_true_eq, UInt32.le_iff_toNat_le] at hc
  exact lt_of_le_of_lt hc.2 (by decide)

/-- The characters of a numeral are digits, the point, the exponent mark and the sign of the
exponent. -/
theorem Denotes.isDigit_or_mem {s : List Char} {v : ℚ} (h : Denotes s v) {c : Char} (hc : c ∈ s) :
    c.isDigit = true ∨ c ∈ ['.', 'e', '+', '-'] := by
  rcases h with ⟨keepPoint, whole, fraction, tail, e, _, rfl, htail, _⟩
  rcases List.mem_append.mp hc with hpoint | hexponent
  · rcases List.mem_append.mp hpoint with hwhole | hrest
    · exact Or.inl (isDigit_of_mem_digitText hwhole)
    · split at hrest
      · cases hrest
      · rcases List.mem_cons.mp hrest with rfl | hfraction
        · exact Or.inr (by decide)
        · exact Or.inl (isDigit_of_mem_digitText hfraction)
  · rcases htail with ⟨rfl, _⟩ | rfl
    · cases hexponent
    · obtain ⟨sign, places, htext, hsign, _, hplaces, _⟩ := exists_exponentText e
      rw [htext] at hexponent
      rcases List.mem_cons.mp hexponent with rfl | hsigned
      · exact Or.inr (by decide)
      · rcases List.mem_cons.mp hsigned with rfl | hdigits
        · exact Or.inr (by rcases hsign with rfl | rfl <;> decide)
        · exact Or.inl (hplaces c hdigits)

/-- A numeral is ASCII text. -/
theorem Denotes.toNat_lt {s : List Char} {v : ℚ} (h : Denotes s v) {c : Char} (hc : c ∈ s) :
    c.toNat < 128 := by
  have hmarks : ['.', 'e', '+', '-'].all (·.toNat < 128) = true := by decide
  rcases h.isDigit_or_mem hc with hdigit | hmark
  · exact toNat_lt_of_isDigit hdigit
  · exact of_decide_eq_true (List.all_eq_true.mp hmarks c hmark)

/-- A numeral begins with a digit. -/
theorem Denotes.exists_digit {s : List Char} {v : ℚ} (h : Denotes s v) :
    ∃ c t, s = c :: t ∧ c.isDigit = true := by
  rcases h with ⟨keepPoint, whole, fraction, tail, e, hwhole, rfl, _, _⟩
  rcases List.exists_cons_of_ne_nil hwhole with ⟨d, ds, rfl⟩
  exact ⟨digitChar d, _, rfl, Numeral.isDigit_digitChar d d.isLt⟩

/-! ## Written numerals -/

theorem zeros_add (m n : Nat) : zeros (m + n) = zeros m ++ zeros n :=
  List.replicate_add m n 0

theorem length_zeros (count : Nat) : (zeros count).length = count :=
  List.length_replicate

/-- The number `0.d₁d₂d₃…`. -/
def properFraction : List (Fin 10) → ℚ
  | [] => 0
  | d :: ds => (d.val + properFraction ds) / 10

theorem properFraction_append (xs ys : List (Fin 10)) :
    properFraction (xs ++ ys) = properFraction xs + properFraction ys / 10 ^ xs.length := by
  induction xs with
  | nil => simp [properFraction]
  | cons x xs ih =>
      rw [List.cons_append, properFraction, ih, properFraction, List.length_cons, pow_succ]
      ring

@[simp] theorem properFraction_zeros (count : Nat) : properFraction (zeros count) = 0 := by
  induction count with
  | zero => rfl
  | succ count ih =>
      have hcons : zeros (count + 1) = 0 :: zeros count := rfl
      rw [hcons, properFraction, ih]
      norm_num

/-- Digits as an integer are their fraction with the point moved behind them. -/
theorem ofDigits_eq_properFraction (ds : List (Fin 10)) :
    (Numeral.ofDigits 10 (ds.map Fin.val) : ℚ) = properFraction ds * 10 ^ ds.length := by
  induction ds with
  | nil => norm_num [properFraction, Numeral.ofDigits]
  | cons d ds ih =>
      have hcons : Numeral.ofDigits 10 ((d :: ds).map Fin.val) =
          d.val * 10 ^ ds.length + Numeral.ofDigits 10 (ds.map Fin.val) := by
        have happend := Numeral.ofDigits_append 10 [d.val] (ds.map Fin.val)
        simpa [Numeral.ofDigits] using happend
      rw [hcons, properFraction, List.length_cons, pow_succ]
      push_cast
      rw [ih]
      ring

/-- An expansion denotes what its digits after a point and its power of ten say. -/
theorem value_eq_properFraction (x : Decimal) :
    x.value = properFraction x.digits * 10 ^ x.point := by
  have hpoint : x.point = (x.digits.length : Int) + (x.point - x.digits.length) := by ring
  calc
    x.value = properFraction x.digits * 10 ^ x.digits.length * 10 ^ (x.point - x.digits.length) := by
      rw [← ofDigits_eq_properFraction]
      rfl
    _ = properFraction x.digits * 10 ^ ((x.digits.length : Int) + (x.point - x.digits.length)) := by
      rw [zpow_add₀ (by norm_num), zpow_natCast, mul_assoc]
    _ = properFraction x.digits * 10 ^ x.point := by rw [← hpoint]

/-- A decimal numeral by its parts: the digits on either side of the point, whether the point stays
where no digit follows it, and the exponent, if one is written. -/
structure Written where
  whole : List (Fin 10)
  fraction : List (Fin 10)
  keepsPoint : Bool
  exponent? : Option Int
  whole_ne_nil : whole ≠ []

namespace Written

/-- All digits of the mantissa. -/
def shown (w : Written) : List (Fin 10) := w.whole ++ w.fraction

/-- The power of ten that the mantissa is multiplied by. -/
def scale (w : Written) : Int := w.exponent?.getD 0

def text (w : Written) : List Char :=
  pointText w.keepsPoint w.whole w.fraction ++ w.exponent?.elim [] exponentText

/-- The number that the parts say. -/
def value (w : Written) : ℚ :=
  (Numeral.ofDigits 10 (w.whole.map Fin.val) + properFraction w.fraction) * 10 ^ w.scale

theorem value_eq (w : Written) :
    w.value = properFraction w.shown * 10 ^ w.whole.length * 10 ^ w.scale := by
  have hpow : (10 : ℚ) ^ w.whole.length ≠ 0 := by positivity
  rw [value, shown, properFraction_append, ofDigits_eq_properFraction,
    add_mul (properFraction w.whole), div_mul_cancel₀ _ hpow]

theorem denotes_text (w : Written) : Denotes w.text w.value := by
  refine ⟨w.keepsPoint, w.whole, w.fraction, _, w.scale, w.whole_ne_nil, rfl, ?_, ?_⟩
  · rw [scale]
    cases w.exponent? with
    | none => exact Or.inl ⟨rfl, rfl⟩
    | some e => exact Or.inr rfl
  · rw [value_eq, value_eq_properFraction, zpow_natCast, shown]

end Written

/-! ## Layouts -/

theorem length_extend (count : Nat) (ds : List (Fin 10)) :
    (extend count ds).length = max count ds.length := by
  rw [extend, List.length_append, length_zeros]
  omega

/-- Only a point that nothing follows is dropped. -/
theorem dropFinalPoint_eq (keepPoint : Bool) (whole fraction : List (Fin 10)) :
    dropFinalPoint keepPoint (digitText whole ++ '.' :: digitText fraction) =
      pointText keepPoint whole fraction := by
  unfold dropFinalPoint pointText
  rcases List.eq_nil_or_concat fraction with rfl | ⟨ds, d, rfl⟩
  · cases keepPoint <;> simp [digitText]
  · have hlast : digitChar d ≠ '.' := by
      intro h
      have := Numeral.isDigit_digitChar d d.isLt
      rw [show Numeral.digitChar d = '.' from h] at this
      exact absurd this (by decide)
    have hsplit : digitText whole ++ '.' :: digitText (ds ++ [d]) =
        (digitText whole ++ '.' :: digitText ds) ++ [digitChar d] := by
      simp [digitText]
    have hsome : (digitText whole ++ '.' :: digitText (ds ++ [d])).getLast? =
        some (digitChar d) := by
      rw [hsplit, List.getLast?_concat]
    simp [hsome, hlast]

/-- A point set among digits, or before them, splits them, after the zeros that it needs before
them. -/
theorem exists_setPoint {ds : List (Fin 10)} (hds : ds ≠ []) (point : Int)
    (hpoint : point ≤ ds.length) :
    ∃ whole fraction : List (Fin 10), whole ≠ [] ∧
      setPoint ds point = digitText whole ++ '.' :: digitText fraction ∧
      whole ++ fraction = zeros (1 - point).toNat ++ ds ∧
      (whole.length : Int) = (1 - point).toNat + point := by
  unfold setPoint
  split
  · next hle =>
    -- The point stands before the digits: a zero before it, and zeros between it and the digits.
    have hcount : (1 - point).toNat = (-point).toNat + 1 := by omega
    refine ⟨[0], zeros (-point).toNat ++ ds, by simp, ?_, ?_, ?_⟩
    · simp only [digitText, zeros, List.map_append, List.map_replicate]
      rfl
    · rw [hcount]
      rfl
    · rw [List.length_singleton]
      omega
  · next hgt =>
    have hcount : (1 - point).toNat = 0 := by omega
    refine ⟨ds.take point.toNat, ds.drop point.toNat, ?_, rfl, ?_, ?_⟩
    · have hpos : 0 < point.toNat := by omega
      simp [hds, hpos.ne']
    · rw [List.take_append_drop, hcount]
      rfl
    · rw [List.length_take]
      omega

/-- The parts of a numeral that shows the digits of an expansion between zeros, so many on either
side, and has its point where the expansion and the exponent put it. -/
structure Laid (x : Decimal) (alternate : Bool) (exponent? : Option Int) (leading trailing : Nat)
    (w : Written) : Prop where
  keepsPoint_eq : w.keepsPoint = alternate
  exponent?_eq : w.exponent? = exponent?
  shown_eq : w.shown = zeros leading ++ x.digits ++ zeros trailing
  length_whole : (w.whole.length : Int) + w.scale = leading + x.point

theorem exists_laid {x : Decimal} (hx : x.digits ≠ []) (alternate : Bool) (exponent? : Option Int)
    {count : Nat} {point : Int} (hpoint : point + exponent?.getD 0 = x.point)
    (hcount : point ≤ count) :
    ∃ w : Written,
      dropFinalPoint alternate (setPoint (extend count x.digits) point)
        ++ exponent?.elim [] exponentText = w.text ∧
      Laid x alternate exponent? (1 - point).toNat (count - x.digits.length) w := by
  -- The digits reach the point, so that it stands among them or before them.
  have hlength := length_extend count x.digits
  have hne : extend count x.digits ≠ [] := List.append_ne_nil_of_left_ne_nil hx _
  obtain ⟨whole, fraction, hwhole, htext, hshown, hlen⟩ := exists_setPoint hne point (by omega)
  refine ⟨⟨whole, fraction, alternate, exponent?, hwhole⟩, ?_, rfl, rfl, ?_, ?_⟩
  · rw [htext, dropFinalPoint_eq]
    rfl
  · rw [List.append_assoc]
    exact hshown
  · show (whole.length : Int) + exponent?.getD 0 = _
    omega

/-- The places up to the point, and the one after it that `forcePoint` asks for. -/
def placesNeeded (x : Decimal) (forcePoint : Bool) : Nat :=
  (if forcePoint then x.point + 1 else x.point).toNat

/-- In exponent form the first digit stands before the point. -/
theorem exists_laid_of_usesExponent {x : Decimal} (hx : x.digits ≠ []) {style : Layout}
    {forcePoint : Bool} (h : style.usesExponent forcePoint x.point = true) (alternate : Bool) :
    ∃ w : Written, layout x style alternate forcePoint = w.text ∧
      Laid x alternate (some (x.point - 1)) 0
        (style.digitCount alternate x.digits - x.digits.length) w := by
  have hlength : 0 < x.digits.length := List.length_pos_iff.mpr hx
  have htrailing : (style.digitCount alternate x.digits).max 1 - x.digits.length =
      style.digitCount alternate x.digits - x.digits.length := by
    show max _ 1 - _ = _
    omega
  have hcount : (1 : Int) ≤ ((style.digitCount alternate x.digits).max 1 : Nat) := by
    exact_mod_cast Nat.le_max_right _ 1
  rw [← htrailing, layout, if_pos h]
  exact exists_laid hx alternate (some (x.point - 1)) (add_sub_cancel 1 x.point) hcount

/-- In positional form zeros fill the places between the point and the digits. -/
theorem exists_laid_of_positional {x : Decimal} (hx : x.digits ≠ []) {style : Layout}
    {forcePoint : Bool} (h : style.usesExponent forcePoint x.point = false) (alternate : Bool) :
    ∃ w : Written, layout x style alternate forcePoint = w.text ∧
      Laid x alternate none (1 - x.point).toNat
        (max (style.digitCount alternate x.digits) (x.placesNeeded forcePoint)
          - x.digits.length) w := by
  have hneeded : x.point ≤ x.placesNeeded forcePoint := by
    unfold placesNeeded
    split <;> omega
  have hcount : x.point ≤
      (max (style.digitCount alternate x.digits) (x.placesNeeded forcePoint) : Nat) :=
    le_trans hneeded (by exact_mod_cast Nat.le_max_right _ _)
  rw [layout, if_neg (by simp [h]), ← List.append_nil (dropFinalPoint _ _)]
  exact exists_laid hx alternate none (add_zero _) hcount

/-- Every layout shows the digits of the expansion between zeros. -/
theorem exists_laid_layout {x : Decimal} (hx : x.digits ≠ []) (style : Layout)
    (alternate forcePoint : Bool) :
    ∃ (w : Written) (exponent? : Option Int) (leading trailing : Nat),
      layout x style alternate forcePoint = w.text ∧
        Laid x alternate exponent? leading trailing w := by
  cases h : style.usesExponent forcePoint x.point with
  | true =>
      obtain ⟨w, htext, hlaid⟩ := exists_laid_of_usesExponent hx h alternate
      exact ⟨w, _, _, _, htext, hlaid⟩
  | false =>
      obtain ⟨w, htext, hlaid⟩ := exists_laid_of_positional hx h alternate
      exact ⟨w, _, _, _, htext, hlaid⟩

/-- Neither the zeros nor the exponent change what the digits say. -/
theorem Laid.value_eq {x : Decimal} {alternate : Bool} {exponent? : Option Int}
    {leading trailing : Nat} {w : Written} (h : Laid x alternate exponent? leading trailing w) :
    w.value = properFraction x.digits * 10 ^ x.point := by
  have hshown : properFraction w.shown = properFraction x.digits / 10 ^ leading := by
    rw [h.shown_eq, properFraction_append, properFraction_append, properFraction_zeros,
      properFraction_zeros, zero_div, zero_add, length_zeros, add_zero]
  have hpow : (10 : ℚ) ^ leading ≠ 0 := by positivity
  calc
    w.value = properFraction x.digits / 10 ^ leading * 10 ^ ((w.whole.length : Int) + w.scale) := by
      rw [w.value_eq, hshown, zpow_add₀ (by norm_num), zpow_natCast, mul_assoc]
    _ = properFraction x.digits / 10 ^ leading * (10 ^ leading * 10 ^ x.point) := by
      rw [h.length_whole, zpow_add₀ (by norm_num), zpow_natCast]
    _ = properFraction x.digits * 10 ^ x.point := by
      rw [← mul_assoc, div_mul_cancel₀ _ hpow]

/-- The layout of an expansion denotes its value, in every style. -/
theorem denotes_layout {x : Decimal} (hx : x.digits ≠ []) (style : Layout)
    (alternate forcePoint : Bool) : Denotes (layout x style alternate forcePoint) x.value := by
  obtain ⟨w, _, _, _, htext, hlaid⟩ := exists_laid_layout hx style alternate forcePoint
  rw [htext, value_eq_properFraction, ← hlaid.value_eq]
  exact w.denotes_text

/-- In every style the layout is a numeral of the value `0.d₁d₂d₃… × 10 ^ point`, by its parts and to
a reader, that shows every digit once and in its place. -/
theorem layout_numeral {x : Decimal} (hx : x.digits ≠ []) (style : Layout)
    (alternate forcePoint : Bool) :
    ∃ (w : Written) (leading trailing : Nat),
      layout x style alternate forcePoint = w.text ∧
        w.shown = zeros leading ++ x.digits ++ zeros trailing ∧
        (w.whole.length : Int) + w.scale = leading + x.point ∧
        w.value = properFraction x.digits * 10 ^ x.point ∧
        (readScientific? (layout x style alternate forcePoint)).map Scientific.value =
          some (properFraction x.digits * 10 ^ x.point) := by
  obtain ⟨w, _, leading, trailing, htext, hlaid⟩ := exists_laid_layout hx style alternate forcePoint
  refine ⟨w, leading, trailing, htext, hlaid.shown_eq, hlaid.length_whole, hlaid.value_eq, ?_⟩
  obtain ⟨y, hread, hvalue⟩ := (denotes_layout hx style alternate forcePoint).readScientific?
  rw [hread, Option.map_some, hvalue, value_eq_properFraction]

/-- Digits right of the point, with a zero at their front. -/
theorem layout_numeral_belowOne :
    ([0, 2, 5] : List (Fin 10)) ≠ [] ∧
      layout ⟨[0, 2, 5], -1⟩ (.general 4) false true = "0.0025".toList ∧
      ∃ (w : Written) (leading trailing : Nat),
        layout ⟨[0, 2, 5], -1⟩ (.general 4) false true = w.text ∧
          w.shown = zeros leading ++ [0, 2, 5] ++ zeros trailing ∧
          (w.whole.length : Int) + w.scale = leading + (-1) ∧
          w.value = properFraction [0, 2, 5] * 10 ^ (-1 : Int) ∧
          (readScientific? (layout ⟨[0, 2, 5], -1⟩ (.general 4) false true)).map Scientific.value =
            some (properFraction [0, 2, 5] * 10 ^ (-1 : Int)) :=
  ⟨by decide, by decide, layout_numeral (x := ⟨[0, 2, 5], -1⟩) (by decide) (.general 4) false true⟩

/-! ## The default text -/

variable {F : Format}

theorem denotes_shortestText (k : Fin F.overflowRank) :
    Denotes (shortestText k) (shortest .up k).value :=
  denotes_layout (digits_shortest_ne_nil .up k) .shortest false true

/-- The default text of a magnitude is read as that magnitude. -/
theorem readScientific?_shortestText (hF : F.FitsOrderBound) (k : Fin F.overflowRank) :
    ∃ x, readScientific? (shortestText k) = some x ∧ x.magnitude F = .finite k := by
  rcases (denotes_shortestText k).readScientific? with ⟨x, hx, hvalue⟩
  exact ⟨x, hx, magnitude_of_value_shortest hF hvalue⟩

end Decimal
end FormatCheck
