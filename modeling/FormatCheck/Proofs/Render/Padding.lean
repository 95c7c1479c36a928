import FormatCheck.Proofs.Render.Pads
import FormatCheck.Proofs.Spec.Canonical
import FormatCheck.Render

/-!
# Numbers padded as texts

A number is laid out in parts around a signed width, a string is padded whole by a natural one, and
the plain text of a value comes from neither. Under a fill, an alignment to a side or the middle and
a width below `2 ^ 63` the three agree: the parts of a number put together are its plain text
(`text_partsOfBody`, `repr_eq_signText_append`), and outside of `=` alignment their layout is the
padding of that text (`layoutNumber_eq_padText`).

Booleans are left out: their plain text is a word, while a specifier renders them as numbers.
-/

namespace FormatCheck

open Text (stops_nil)

/-! ## Specifiers of a padding -/

namespace Spec

/-- A fill, an alignment and perhaps a width, and nothing else. -/
def padding (fill : Char) (align : Align) (width : Option Nat) : Spec :=
  { fill := some fill, align := some align, width }

/-- The text of such a specifier, with the digits of its width. -/
def paddingText (fill : Char) (align : Align) (width : List Char) : String :=
  String.ofList (fill :: align.toChar :: width)

@[simp] theorem resolveFill_padding (fill : Char) (align default : Align) (width : Option Nat) :
    (padding fill align width).resolveFill default = (fill, align) := rfl

@[simp] theorem checkGrouping_padding (fill : Char) (align : Align) (width : Option Nat)
    (code : Option Char) : (padding fill align width).checkGrouping code = .ok () := rfl

/-- Whatever the fill is, the alignment in the second place makes it one, and a zero after it
belongs to the width. -/
theorem parse_paddingText (typeName : String) (fill : Char) (align : Align) {width : List Char}
    (hdigits : ∀ c ∈ width, c.isDigit = true) (hwidth : Numeral.readDecimal width < numberBound) :
    parse typeName (paddingText fill align width) = .ok (padding fill align (runValue? width)) := by
  let cut : Cut := ⟨some fill, some align, none, false, false, width, [], none, []⟩
  have hafter : cut.afterZeroPad = width := List.append_nil width
  have htext : cut.text = (paddingText fill align width).toList := by
    rw [paddingText, String.toList_ofList, ← hafter]
    rfl
  have hstops : ∀ p : Char → Bool, (∀ c, c.isDigit = true → p c = false) →
      Text.Stops p cut.afterZeroPad := by
    intro p hp c hc
    rw [hafter] at hc
    exact hp c (hdigits c (List.mem_of_mem_head? hc))
  have hlongest : cut.Longest :=
    { align_of_fill := fun _ => rfl
      no_fill := nofun
      no_align := nofun
      no_sign := fun _ => hstops _ fun _ => not_accepts_sign
      no_alternate := fun _ => hstops _ fun _ => ne_hash_of_isDigit
      no_zeroPad := nofun
      zeroPad_of_fill := fun _ => rfl
      width_digits := hdigits
      width_end := stops_nil _
      separators_end := stops_nil _
      no_precision := fun _ => stops_nil _
      precision_digits := nofun
      precision_end := nofun }
  have hsound : cut.Sound := ⟨hwidth, Nat.zero_le 1, nofun, nofun, Nat.zero_le 1⟩
  exact Cut.parse_of_sound htext hlongest hsound

end Spec

namespace Render

/-! ## Layouts -/

/-- A text between two pads of a fill character that bring it to a width, on the sides that the
alignment names; in the middle the odd one goes to the right. -/
structure Padded (fill : Char) (align : Align) (width : Nat) (text shown : List Char) : Prop where
  exists_pads : ∃ left right,
    shown = List.replicate left fill ++ text ++ List.replicate right fill ∧
      left + right = width - text.length ∧
      (align = .left → left = 0) ∧ (align = .right → right = 0) ∧
      (align = .center → left ≤ right ∧ right ≤ left + 1)

theorem padded_padText (s : List Char) (width : Option Nat) (fill : Char) (align : Align) :
    Padded fill align (width.getD 0) s (padText s width fill align) := by
  refine ⟨_, _, rfl, ?_, ?_, ?_, ?_⟩
  · cases align with
    | center => exact Nat.add_sub_of_le (Nat.div_le_self _ 2)
    | _ => simp
  · rintro rfl
    rfl
  · rintro rfl
    simp
  · rintro rfl
    simp only
    omega

/-- A text between its pads is determined by them. -/
theorem Padded.eq_padText {fill : Char} {align : Align} {width : Option Nat}
    (halign : align ≠ .afterSign) {s shown : List Char}
    (h : Padded fill align (width.getD 0) s shown) :
    shown = padText s width fill align := by
  rcases h.exists_pads with ⟨left, right, rfl, hsum, hleft, hright, hcenter⟩
  rcases (padded_padText s width fill align).exists_pads with
    ⟨left', right', heq, hsum', hleft', hright', hcenter'⟩
  have hpads : left = left' ∧ right = right' := by
    cases align with
    | left =>
        have h₁ := hleft rfl
        have h₂ := hleft' rfl
        omega
    | right =>
        have h₁ := hright rfl
        have h₂ := hright' rfl
        omega
    | center =>
        have h₁ := hcenter rfl
        have h₂ := hcenter' rfl
        omega
    | afterSign => exact absurd rfl halign
  rw [heq, hpads.1, hpads.2]

theorem Padded.length_eq {fill : Char} {align : Align} {width : Nat} {s shown : List Char}
    (h : Padded fill align width s shown) : shown.length = max width s.length := by
  rcases h.exists_pads with ⟨left, right, rfl, hsum, _⟩
  simp only [List.length_append, List.length_replicate]
  omega

/-- The text of a number before it is grouped and padded. -/
def NumberParts.text (parts : NumberParts) (sign : Option Sign) : List Char :=
  signText parts.negative sign ++ parts.baseMark ++ parts.digits ++ parts.tail

theorem NumberParts.length_text (parts : NumberParts) (sign : Option Sign) :
    (parts.text sign).length =
      (signText parts.negative sign).length + parts.baseMark.length + parts.tail.length
        + parts.digits.length := by
  simp only [text, List.length_append]
  omega

/-- Without a grouping and with its pads at the ends alone, a number is laid out as its text is
padded. -/
theorem layoutNumber_eq_padText (parts : NumberParts) {spec : Spec} {fill : Char} {align : Align}
    (hfill : spec.resolveFill .right = (fill, align)) (halign : align ≠ .afterSign)
    (hgrouping : spec.grouping = none) (hwidth : ∀ w ∈ spec.width, w < 2 ^ 63) (groupSize : Nat) :
    layoutNumber parts spec groupSize = padText (parts.text spec.sign) spec.width fill align := by
  have hdigits : groupedDigits parts spec groupSize (parts.otherLength spec) = parts.digits := by
    simp only [groupedDigits, hgrouping]
  have hlength : (parts.text spec.sign).length = parts.otherLength spec + parts.digits.length :=
    parts.length_text spec.sign
  have hroom : (signedWidth spec.width - parts.otherLength spec - parts.digits.length).toNat =
      spec.width.getD 0 - (parts.text spec.sign).length := by
    rw [hlength, ← toNat_signedWidth_sub hwidth]
    push_cast
    rw [Int.sub_sub]
  rw [layoutNumber_eq_padded, hdigits, hroom]
  simp only [NumberParts.padded, hfill, padText]
  cases align with
  | left => simp [Pads.spread, NumberParts.text]
  | right => simp [Pads.spread, NumberParts.text]
  | center =>
      have hhalf : ∀ n : Nat, n - n / 2 = (n + 1) / 2 := by omega
      simp [Pads.spread, NumberParts.text, hhalf]
  | afterSign => exact absurd rfl halign

/-! ## Plain texts -/

/-- Cutting the body of a float into parts loses nothing. -/
theorem text_partsOfBody (negative : Bool) (body : List Char) :
    (partsOfBody negative body).text none = signText negative none ++ body := by
  have hbody : body.takeWhile Char.isDigit ++ body.dropWhile Char.isDigit = body :=
    List.takeWhile_append_dropWhile
  unfold partsOfBody
  split
  · next remainder hrest =>
    rw [hrest] at hbody
    simpa [NumberParts.text, NumberParts.tail] using hbody
  · simp [NumberParts.text, NumberParts.tail]

variable (fill : Char) (align : Align) (width : Option Nat)

/-- The sign and the body of a float under a specifier that asks for no more than padding are its
representation. -/
theorem repr_eq_signText_append (x : Binary64) :
    x.repr = signText (x.negative && !x.isNaN) none
      ++ floatBody x.magnitude (.padding fill align width) none := by
  rcases x with ⟨negative, magnitude⟩
  cases magnitude with
  | nan => cases negative <;> rfl
  | infinite => cases negative <;> rfl
  | finite k => cases negative <;> rfl

theorem signText_append_decimal (z : Int) :
    signText (z < 0) none ++ Numeral.decimal z.natAbs = Numeral.signedDecimal z := by
  unfold Numeral.signedDecimal
  by_cases hz : z < 0
  · simp [signText, hz]
  · simp [signText, hz]

/-! ## Padded values -/

section Padding

variable {align width}

theorem layoutNumber_padding (halign : align ≠ .afterSign) (hwidth : ∀ w ∈ width, w < 2 ^ 63)
    (parts : NumberParts) (groupSize : Nat) :
    layoutNumber parts (.padding fill align width) groupSize =
      padText (parts.text none) width fill align :=
  layoutNumber_eq_padText parts (Spec.resolveFill_padding fill align .right width) halign rfl hwidth
    groupSize

theorem formatInteger_padding (halign : align ≠ .afterSign) (hwidth : ∀ w ∈ width, w < 2 ^ 63)
    (z : Int) (kind : ValueKind) :
    formatInteger z (.padding fill align width) kind =
      .ok (padText (Numeral.signedDecimal z) width fill align) := by
  let parts : NumberParts := { negative := z < 0, digits := Numeral.decimal z.natAbs }
  have htext : parts.text none = Numeral.signedDecimal z := by
    simpa [parts, NumberParts.text, NumberParts.tail] using signText_append_decimal z
  calc
    formatInteger z (.padding fill align width) kind
        = .ok (layoutNumber parts (.padding fill align width) 3) := rfl
    _ = .ok (padText (parts.text none) width fill align) := by
          rw [layoutNumber_padding fill halign hwidth]
    _ = .ok (padText (Numeral.signedDecimal z) width fill align) := by
          rw [htext]

theorem formatFloat_padding (halign : align ≠ .afterSign) (hwidth : ∀ w ∈ width, w < 2 ^ 63)
    (x : Binary64) :
    formatFloat x (.padding fill align width) = .ok (padText x.repr width fill align) := by
  let parts := partsOfBody (x.negative && !x.isNaN)
    (floatBody x.magnitude (.padding fill align width) none)
  have htext : parts.text none = x.repr :=
    (text_partsOfBody _ _).trans (repr_eq_signText_append fill align width x).symm
  calc
    formatFloat x (.padding fill align width)
        = .ok (layoutNumber parts (.padding fill align width) 3) := rfl
    _ = .ok (padText (parts.text none) width fill align) := by
          rw [layoutNumber_padding fill halign hwidth]
    _ = .ok (padText x.repr width fill align) := by
          rw [htext]

theorem formatText_padding (halign : align ≠ .afterSign) (s : List Char) :
    formatText s (.padding fill align width) = .ok (padText s width fill align) := by
  cases align with
  | afterSign => exact absurd rfl halign
  | _ => rfl

/-- Every value but a boolean is padded as its plain text is. -/
theorem formatWith_padding (halign : align ≠ .afterSign) (hwidth : ∀ w ∈ width, w < 2 ^ 63)
    {v : Value} (hv : v.kind ≠ .bool) :
    formatWith v (.padding fill align width) = .ok (padText v.toText.toList width fill align) := by
  cases v with
  | bool b => exact absurd rfl hv
  | int i =>
      simpa [formatWith, Value.toText, Value.repr, Value.reprWith, Numeral.showInt] using
        formatInteger_padding fill halign hwidth i.toInt .int
  | uint n =>
      have hsigned : Numeral.signedDecimal (n.toNat : Int) = Numeral.decimal n.toNat := by
        simp [Numeral.signedDecimal]
      simpa [formatWith, Value.toText, Value.repr, Value.reprWith, Numeral.showNat, hsigned] using
        formatInteger_padding fill halign hwidth n.toNat .int
  | float x =>
      simpa [formatWith, Value.toText, Value.repr, Value.reprWith] using
        formatFloat_padding fill halign hwidth x
  | str s => exact formatText_padding fill halign s.toList

end Padding

theorem formatValue_paddingText (fill : Char) {align : Align} (halign : align ≠ .afterSign)
    {width : List Char} (hdigits : ∀ c ∈ width, c.isDigit = true)
    (hwidth : Numeral.readDecimal width < 2 ^ 63) {v : Value} (hv : v.kind ≠ .bool) :
    formatValue v (Spec.paddingText fill align width) =
      .ok (String.ofList (padText v.toText.toList (Spec.runValue? width) fill align)) := by
  have hnonempty : (Spec.paddingText fill align width).isEmpty = false := by
    simp [Spec.paddingText]
  have hparse := Spec.parse_paddingText v.kind.name fill align hdigits
    (Nat.lt_trans hwidth (by decide))
  have hvalue : ∀ w ∈ Spec.runValue? width, w < 2 ^ 63 := by
    intro w hw
    by_cases hnil : width = []
    · simp [Spec.runValue?, hnil] at hw
    · simp only [Spec.runValue?, hnil, if_false, Option.mem_def, Option.some.injEq] at hw
      exact hw ▸ hwidth
  simp only [formatValue, hnonempty, hparse, formatWith_padding fill halign hvalue hv, bind,
    Except.bind, Bool.false_eq_true, if_false]

/-- A number and its plain text are padded alike: the renderings are one text, which is the plain
text between its pads, and the plain text is what the empty specifier and a conversion to a string
show. -/
theorem formatValue_number_eq_text {v : Value} (hv : v.kind = .int ∨ v.kind = .float) (fill : Char)
    {align : Align} (halign : align ≠ .afterSign) {width : List Char}
    (hdigits : ∀ c ∈ width, c.isDigit = true) (hwidth : Numeral.readDecimal width < 2 ^ 63) :
    formatValue v "" = .ok v.toText ∧ convert v 's' = .ok (.str v.toText) ∧
      ∃ shown, Padded fill align (Numeral.readDecimal width) v.toText.toList shown ∧
        formatValue v (Spec.paddingText fill align width) = .ok (String.ofList shown) ∧
        formatValue (.str v.toText) (Spec.paddingText fill align width) =
          .ok (String.ofList shown) := by
  have hkind : v.kind ≠ .bool := by
    intro hbool
    simp [hbool] at hv
  have hvalue : (Spec.runValue? width).getD 0 = Numeral.readDecimal width := by
    unfold Spec.runValue?
    split
    · next hnil =>
      rw [hnil]
      rfl
    · rfl
  refine ⟨rfl, rfl, _, hvalue ▸ padded_padText _ _ fill align, ?_, ?_⟩
  · exact formatValue_paddingText fill halign hdigits hwidth hkind
  · have hstr : (Value.str v.toText).kind ≠ .bool := nofun
    exact formatValue_paddingText fill halign hdigits hwidth hstr

def negativeZero : Value := .float ⟨true, .finite ⟨0, by decide⟩⟩

/-- Negative zero between zeros: its sign stays with it, and the odd pad goes to the right. -/
theorem formatValue_number_eq_text_negativeZero :
    negativeZero.toText = "-0.0" ∧ formatValue negativeZero "0^007" = .ok "0-0.000" ∧
      formatValue (.str negativeZero.toText) "0^007" = .ok "0-0.000" := by
  have hcenter : Align.center ≠ .afterSign := by decide
  have hdigits : ∀ c ∈ "007".toList, c.isDigit = true :=
    List.all_eq_true.mp (by decide : "007".toList.all Char.isDigit = true)
  rcases formatValue_number_eq_text (Or.inr rfl : _ ∨ negativeZero.kind = .float) '0' hcenter
      hdigits (by decide) with ⟨_, _, shown, _, hnumber, htext⟩
  have hspec : Spec.paddingText '0' .center "007".toList = "0^007" := by decide
  rw [hspec] at hnumber htext
  have hshown : formatValue negativeZero "0^007" = .ok "0-0.000" := by decide +kernel
  have hsame : String.ofList shown = "0-0.000" := Except.ok.inj (hnumber.symm.trans hshown)
  exact ⟨by decide +kernel, hshown, hsame ▸ htext⟩

end Render
end FormatCheck
