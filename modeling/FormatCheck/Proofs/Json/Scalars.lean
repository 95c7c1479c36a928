import FormatCheck.Json.Printer
import FormatCheck.Json.Reader
import FormatCheck.Proofs.Numeral
import FormatCheck.Proofs.Text.Run

/-!
# JSON strings and numbers read back

A string is read back whatever characters it holds: the reader takes its characters and escapes as
units, one for each character, and assembles the string from them. An integer of 64 bits is read back
where what follows does not go on with its digits. Neither is written with a character below the
space, so neither breaks a line.
-/

namespace FormatCheck
namespace Json

/-- The text has no character below the space, so no line break in particular. -/
def OneLine (text : List Char) : Prop := ∀ c ∈ text, ¬ c.toNat < 0x20

theorem oneLine_cons {c : Char} {s : List Char} :
    OneLine (c :: s) ↔ ¬ c.toNat < 0x20 ∧ OneLine s :=
  List.forall_mem_cons

theorem oneLine_append {s t : List Char} : OneLine (s ++ t) ↔ OneLine s ∧ OneLine t :=
  List.forall_mem_append

/-! ## Strings -/

/-- The characters below the space that have an escape of their own. -/
def hasShortEscape (c : Char) : Bool :=
  c = '\n' || c = '\r' || c = '\t' || c.toNat = 8 || c.toNat = 12

/-- The unit that a character of a written string is taken as. -/
def writtenUnit (c : Char) : StringUnit :=
  if c.toNat < 0x20 ∧ hasShortEscape c = false then .escaped c.toNat else .char c

theorem hexText_control : ∀ n < 32, Text.hexText 4 n =
    ['0', '0', Numeral.digitChar (n / 16), Numeral.digitChar (n % 16)] := by
  decide +kernel

theorem mapM_hexValue?_control : ∀ n < 32,
    ['0', '0', Numeral.digitChar (n / 16), Numeral.digitChar (n % 16)].mapM hexValue? =
      some [0, 0, n / 16, n % 16] := by
  decide

theorem takeUnits?_shortEscape {e c : Char} (h : shortEscape? e = some c) (s : List Char) :
    takeUnits? ('\\' :: e :: s) =
      (takeUnits? s).map fun (units, rest) => (.char c :: units, rest) := by
  -- An escape by number would begin with a `u`, which is no short escape.
  have he : e ≠ 'u' := by
    rintro rfl
    cases h
  rw [takeUnits?]
  · rw [h]
    cases takeUnits? s <;> rfl
  · simp [he]

theorem takeUnits?_control {c : Char} (hc : c.toNat < 0x20) (s : List Char) :
    takeUnits? ('\\' :: 'u' :: (Text.hexText 4 c.toNat ++ s)) =
      (takeUnits? s).map fun (units, rest) => (.escaped c.toNat :: units, rest) := by
  have hvalue : Numeral.ofDigits 16 [0, 0, c.toNat / 16, c.toNat % 16] = c.toNat := by
    simp only [Numeral.ofDigits, List.foldl]
    omega
  rw [hexText_control c.toNat hc]
  simp only [List.cons_append, List.nil_append, takeUnits?, mapM_hexValue?_control c.toNat hc]
  cases takeUnits? s <;> simp [hvalue]

theorem takeUnits?_escapeChar (c : Char) (s : List Char) :
    takeUnits? (escapeChar c ++ s) =
      (takeUnits? s).map fun (units, rest) => (writtenUnit c :: units, rest) := by
  have hchar : (c.toNat < 0x20 → hasShortEscape c = true) → writtenUnit c = .char c := by
    intro h
    refine if_neg ?_
    rintro ⟨hcontrol, hnone⟩
    exact absurd (h hcontrol) (by simp [hnone])
  -- The cases are those of the writer: the short escapes, the escape by number, and no escape.
  unfold escapeChar
  split_ifs with hquote hfeed hreturn htab hback hform hcontrol
  · have hshort : shortEscape? c = some c := by rcases hquote with rfl | rfl <;> rfl
    have hlarge : ¬ c.toNat < 0x20 := by rcases hquote with rfl | rfl <;> decide
    rw [hchar fun h => absurd h hlarge]
    exact takeUnits?_shortEscape hshort s
  · rw [hchar fun _ => by simp [hasShortEscape, hfeed], hfeed]
    exact takeUnits?_shortEscape rfl s
  · rw [hchar fun _ => by simp [hasShortEscape, hreturn], hreturn]
    exact takeUnits?_shortEscape rfl s
  · rw [hchar fun _ => by simp [hasShortEscape, htab], htab]
    exact takeUnits?_shortEscape rfl s
  · have hc : Char.ofNat 8 = c := by rw [← hback, Char.ofNat_toNat]
    rw [hchar fun _ => by simp [hasShortEscape, hback], ← hc]
    exact takeUnits?_shortEscape rfl s
  · have hc : Char.ofNat 12 = c := by rw [← hform, Char.ofNat_toNat]
    rw [hchar fun _ => by simp [hasShortEscape, hform], ← hc]
    exact takeUnits?_shortEscape rfl s
  · have hunit : writtenUnit c = .escaped c.toNat := by
      simp [writtenUnit, hasShortEscape, hcontrol, hfeed, hreturn, htab, hback, hform]
    rw [hunit]
    exact takeUnits?_control hcontrol s
  · rw [not_or] at hquote
    rw [hchar fun h => absurd h hcontrol, List.singleton_append, takeUnits?]
    · cases takeUnits? s <;> simp [hquote.2, hcontrol]
    · exact hquote.1
    · simp [hquote.2]
    · simp [hquote.2]

theorem takeUnits?_escaped (s rest : List Char) :
    takeUnits? (s.flatMap escapeChar ++ '"' :: rest) = some (s.map writtenUnit, rest) := by
  induction s with
  | nil =>
      simp [takeUnits?]
  | cons c s ih =>
      rw [List.flatMap_cons, List.append_assoc, takeUnits?_escapeChar, ih]
      rfl

theorem assemble?_writtenUnit (s : List Char) : assemble? (s.map writtenUnit) = some s := by
  induction s with
  | nil =>
      rfl
  | cons c s ih =>
      rw [List.map_cons]
      by_cases hc : c.toNat < 0x20 ∧ hasShortEscape c = false
      · -- A control character is no surrogate, so it does not wait for a partner.
        have hhigh : ¬ (0xd800 ≤ c.toNat ∧ c.toNat < 0xdc00) := by omega
        have hlow : ¬ (0xdc00 ≤ c.toNat ∧ c.toNat < 0xe000) := by omega
        have hlone : ¬ (0xd800 ≤ c.toNat ∧ c.toNat < 0xe000) := by omega
        have hunit : writtenUnit c = .escaped c.toNat := if_pos hc
        rw [hunit]
        generalize s.map writtenUnit = units at ih ⊢
        unfold assemble?
        split
        · next h => cases h
        · next h => cases h
        · next high low rest h =>
            cases h
            rw [if_neg hhigh, if_neg hlow, ih]
            simp
        · next h =>
            cases h
            rw [if_neg hlone, ih]
            simp
      · have hunit : writtenUnit c = .char c := if_neg hc
        rw [hunit, assemble?, ih]
        rfl

theorem oneLine_of_all {s : List Char} (h : s.all (fun c => ¬ c.toNat < 0x20) = true) :
    OneLine s := by
  intro c hc
  exact of_decide_eq_true (List.all_eq_true.mp h c hc)

theorem oneLine_escapeChar (c : Char) : OneLine (escapeChar c) := by
  have hcontrols : ∀ n < 32, ['\\', 'u', '0', '0', Numeral.digitChar (n / 16),
      Numeral.digitChar (n % 16)].all (fun d => ¬ d.toNat < 0x20) = true := by
    decide
  unfold escapeChar
  split_ifs with hquote hfeed hreturn htab hback hform hcontrol
  · rcases hquote with rfl | rfl <;> exact oneLine_of_all (by decide)
  · exact oneLine_of_all (by decide)
  · exact oneLine_of_all (by decide)
  · exact oneLine_of_all (by decide)
  · exact oneLine_of_all (by decide)
  · exact oneLine_of_all (by decide)
  · rw [hexText_control c.toNat hcontrol]
    exact oneLine_of_all (hcontrols c.toNat hcontrol)
  · exact oneLine_cons.mpr ⟨hcontrol, List.forall_mem_nil _⟩

theorem oneLine_stringText (s : String) : OneLine (stringText s) := by
  refine oneLine_cons.mpr ⟨by decide, oneLine_append.mpr ⟨?_, ?_⟩⟩
  · intro c hc
    rcases List.mem_flatMap.mp hc with ⟨d, _, hd⟩
    exact oneLine_escapeChar d c hd
  · exact oneLine_cons.mpr ⟨by decide, List.forall_mem_nil _⟩

theorem takeString?_escaped (s : String) (rest : List Char) :
    takeString? (s.toList.flatMap escapeChar ++ '"' :: rest) = some (some s, rest) := by
  rw [takeString?, takeUnits?_escaped]
  simp [assemble?_writtenUnit]

/-! ## Numbers -/

/-- The characters that a number could go on with. -/
def continuesNumber (c : Char) : Bool := c.isDigit || c = '.' || c = 'e' || c = 'E'

/-- The text does not go on with a number before it. -/
def Follows (rest : List Char) : Prop := Text.Stops continuesNumber rest

end Json

open Json

/-- The number is written on one line as a text that is read as the number again. -/
structure JsonNumber.Legible (n : JsonNumber) : Prop where
  reads : ∃ source : NumberSource, source.value? = some n ∧
    ∀ rest, Follows rest → takeNumber? (numberText n ++ rest) = some (source, rest)
  oneLine : OneLine (numberText n)

namespace Json

theorem Follows.not_digit {rest : List Char} (h : Follows rest) :
    Text.Stops Char.isDigit rest := by
  intro c hc
  have hall := h c hc
  simp only [continuesNumber, Bool.or_eq_false_iff] at hall
  exact hall.1.1.1

theorem takeFraction?_follows {rest : List Char} (h : Follows rest) :
    takeFraction? rest = some ([], rest) := by
  unfold takeFraction?
  split
  · exact absurd (h '.' rfl) (by decide)
  · rfl

theorem takeExponent?_follows {rest : List Char} (h : Follows rest) :
    takeExponent? rest = some (none, rest) := by
  cases rest with
  | nil =>
      rfl
  | cons c rest =>
      have hc : ¬ (c = 'e' ∨ c = 'E') := by
        rintro (rfl | rfl)
        · exact absurd (h 'e' rfl) (by decide)
        · exact absurd (h 'E' rfl) (by decide)
      simp only [takeExponent?]
      rw [if_neg hc]

/-- Only the numeral of zero begins with a zero. -/
theorem takeWhole?_decimal (n : Nat) {rest : List Char} (h : Follows rest) :
    takeWhole? (Numeral.decimal n ++ rest) = some (Numeral.decimal n, rest) := by
  have hdigits : ∀ c ∈ Numeral.decimal n, c.isDigit = true :=
    fun _ => Numeral.isDigit_of_mem_decimal
  have htake : takeDigits? (Numeral.decimal n ++ rest) = some (Numeral.decimal n, rest) := by
    unfold takeDigits?
    rw [Text.takeWhile_run hdigits h.not_digit, Text.dropWhile_run hdigits h.not_digit]
    exact if_neg (Numeral.decimal_ne_nil n)
  have hhead : ¬ ((Numeral.decimal n).head? = some '0' ∧ (Numeral.decimal n).length ≠ 1) := by
    rintro ⟨hzero, hlength⟩
    rw [Numeral.eq_zero_of_head?_decimal hzero] at hlength
    exact hlength (by simp [Numeral.decimal, Numeral.text, Numeral.digits_eq])
  unfold takeWhole?
  rw [htake]
  exact if_neg hhead

theorem takeNumber?_signedDecimal (z : Int) {rest : List Char} (h : Follows rest) :
    takeNumber? (Numeral.signedDecimal z ++ rest) =
      some (⟨decide (z < 0), Numeral.decimal z.natAbs, [], none⟩, rest) := by
  have hwhole := takeWhole?_decimal z.natAbs h
  unfold takeNumber? Numeral.signedDecimal
  by_cases hz : z < 0
  · simp [hz, hwhole, takeFraction?_follows h, takeExponent?_follows h]
  · -- Without a sign the text begins with a digit, which is no minus.
    cases hdecimal : Numeral.decimal z.natAbs with
    | nil => exact absurd hdecimal (Numeral.decimal_ne_nil _)
    | cons c s =>
        have hc : c.isDigit = true := Numeral.isDigit_of_mem_decimal (n := z.natAbs)
          (by rw [hdecimal]; exact List.mem_cons_self)
        have hminus : c ≠ '-' := by
          rintro rfl
          cases hc
        rw [hdecimal] at hwhole
        rw [List.cons_append] at hwhole
        simp [hz, hminus, hwhole, takeFraction?_follows h, takeExponent?_follows h]

theorem value?_decimal {z : Int} (hlow : -2 ^ 63 ≤ z) (hhigh : z < 2 ^ 64) :
    (⟨decide (z < 0), Numeral.decimal z.natAbs, [], none⟩ : NumberSource).value? =
      some (.integer z) := by
  simp only [NumberSource.value?, NumberSource.isIntegral, Numeral.readDecimal_decimal, wordBound]
  by_cases hz : z < 0
  · have hpos : 0 < z.natAbs := by omega
    have hbound : z.natAbs ≤ 2 ^ 63 := by omega
    simp [hz, hpos, hbound, abs_of_neg hz]
  · have hbound : z.natAbs < 2 ^ 64 := by omega
    simp [hz, hbound, abs_of_nonneg (not_lt.mp hz)]

theorem oneLine_decimal (n : Nat) : OneLine (Numeral.decimal n) := by
  intro c hc
  have hbounds : 48 ≤ c.toNat ∧ c.toNat ≤ 57 :=
    Char.isDigit_iff_toNat.mp (Numeral.isDigit_of_mem_decimal hc)
  omega

theorem oneLine_signedDecimal (z : Int) : OneLine (Numeral.signedDecimal z) := by
  unfold Numeral.signedDecimal
  split
  · exact oneLine_cons.mpr ⟨by decide, oneLine_decimal z.natAbs⟩
  · exact oneLine_decimal z.natAbs

/-- An integer of 64 bits, signed or unsigned, is read back. -/
theorem legible_integer {z : Int} (hlow : -2 ^ 63 ≤ z) (hhigh : z < 2 ^ 64) :
    (JsonNumber.integer z).Legible where
  reads := ⟨_, value?_decimal hlow hhigh, fun _ h => takeNumber?_signedDecimal z h⟩
  oneLine := oneLine_signedDecimal z

end Json
end FormatCheck
