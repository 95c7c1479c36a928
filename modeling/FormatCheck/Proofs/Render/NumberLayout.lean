import FormatCheck.Proofs.Render.Lossless
import FormatCheck.Proofs.Render.Padding

/-!
# Layout of numbers

A number is laid out as `left pad, sign, mark, inner pad, digits, tail, right pad`. `NumberLayout`
says which pads are used, how the digits are shown and how long the result is:

1. padding by the fill character brings the number to the width, where its alignment puts it;
2. digits that are grouped and zero-filled are extended by grouped zeros in place of padding, and
   pass the width by one where a separator would stand first.

`Shows` names the parts of a value under a specifier, and `formatValue_numberLayout` says that every
rendering of a number is such a layout of its parts.
-/

namespace FormatCheck
namespace Render

/-! ## Layouts -/

namespace NumberParts

variable (parts : NumberParts) (spec : Spec)

/-- The digits before the point, grouped where the specifier asks for it. -/
def shownDigits : List Char :=
  match spec.grouping with
  | .none => parts.digits
  | .some grouping => grouped grouping.toChar (groupSizeOf spec) parts.digits

/-- The number of characters without padding. -/
def naturalLength : Nat := parts.otherLength spec + (parts.shownDigits spec).length

/-- Whether grouped zeros take the place of padding. -/
def ExtendsDigits : Prop :=
  spec.grouping.isSome ∧ parts.digits ≠ [] ∧ spec.resolveFill .right = ('0', .afterSign) ∧
    parts.naturalLength spec < spec.width.getD 0

end NumberParts

/-- How a number is laid out under a specifier. -/
inductive NumberLayout (spec : Spec) (parts : NumberParts) (shown : List Char) : Prop where
  | padded
      (not_extends : ¬parts.ExtendsDigits spec)
      (text : shown = parts.padded spec
        (.spread (spec.width.getD 0 - parts.naturalLength spec) (spec.resolveFill .right).2)
        (parts.shownDigits spec))
      (length : shown.length = max (spec.width.getD 0) (parts.naturalLength spec))
  | extended (grouping : Grouping) (zeros : Nat)
      (extends_digits : parts.ExtendsDigits spec)
      (grouping_eq : spec.grouping = some grouping)
      (text : shown = parts.padded spec .none
        (grouped grouping.toChar (groupSizeOf spec) (List.replicate zeros '0' ++ parts.digits)))
      (length : shown.length =
        if SeparatorAt (groupSizeOf spec) (spec.width.getD 0 - parts.otherLength spec) then
          spec.width.getD 0 + 1
        else spec.width.getD 0)

variable {parts : NumberParts} {spec : Spec}

/-- Digits that reach the width are grouped alone, as are those that do not look at it. -/
theorem groupedDigits_of_reached (h : spec.grouping.isSome → parts.digits ≠ [] →
    spec.resolveFill .right = ('0', .afterSign) →
      signedWidth spec.width ≤ parts.naturalLength spec) :
    groupedDigits parts spec (groupSizeOf spec) (parts.otherLength spec) =
      parts.shownDigits spec := by
  unfold groupedDigits
  cases hgrouping : spec.grouping with
  | none => simp [NumberParts.shownDigits, hgrouping]
  | some grouping =>
      have hshown : parts.shownDigits spec =
          grouped grouping.toChar (groupSizeOf spec) parts.digits := by
        simp [NumberParts.shownDigits, hgrouping]
      by_cases hnil : parts.digits = []
      · simp [hshown, hnil, grouped]
      · simp only [hnil, if_false]
        rcases exists_insertGrouping grouping.toChar (groupSizeOf_pos spec) parts.digits
          (if (spec.resolveFill .right).1 = '0' ∧ (spec.resolveFill .right).2 = .afterSign then
            signedWidth spec.width - parts.otherLength spec else 0) with ⟨zeros, hzeros, htext⟩
        have hnatural : parts.naturalLength spec =
            parts.otherLength spec + groupedLength (groupSizeOf spec) parts.digits.length := by
          rw [NumberParts.naturalLength, hshown, length_grouped]
        have hnone : zeros = 0 := by
          apply hzeros.eq_zero (List.length_pos_iff.mpr hnil)
          split
          · next hzero =>
            have hreached := h (by simp [hgrouping]) hnil (Prod.ext hzero.1 hzero.2)
            omega
          · omega
        rw [htext, hnone, hshown, List.replicate_zero, List.nil_append]

/-- Digits that are not extended are grouped alone. -/
theorem groupedDigits_of_not_extends (hwidth : ∀ w ∈ spec.width, w < 2 ^ 63)
    (h : ¬parts.ExtendsDigits spec) :
    groupedDigits parts spec (groupSizeOf spec) (parts.otherLength spec) =
      parts.shownDigits spec := by
  refine groupedDigits_of_reached fun hgrouping hdigits hfill => ?_
  have hreached : spec.width.getD 0 ≤ parts.naturalLength spec :=
    Nat.le_of_not_lt fun hshort => h ⟨hgrouping, hdigits, hfill, hshort⟩
  rcases signedWidth_cases hwidth with heq | ⟨heq, _⟩ <;> omega

/-- Digits that are extended fill the width, or one character more. -/
theorem exists_groupedDigits_of_extends (hwidth : ∀ w ∈ spec.width, w < 2 ^ 63)
    (h : parts.ExtendsDigits spec) :
    ∃ grouping zeros, spec.grouping = some grouping ∧
      groupedDigits parts spec (groupSizeOf spec) (parts.otherLength spec) =
        grouped grouping.toChar (groupSizeOf spec) (List.replicate zeros '0' ++ parts.digits) ∧
      parts.otherLength spec
          + (groupedDigits parts spec (groupSizeOf spec) (parts.otherLength spec)).length =
        if SeparatorAt (groupSizeOf spec) (spec.width.getD 0 - parts.otherLength spec) then
          spec.width.getD 0 + 1
        else spec.width.getD 0 := by
  rcases h with ⟨hsome, hnil, hfill, hshort⟩
  rcases Option.isSome_iff_exists.mp hsome with ⟨grouping, hgrouping⟩
  have hnatural : parts.naturalLength spec =
      parts.otherLength spec + groupedLength (groupSizeOf spec) parts.digits.length := by
    rw [NumberParts.naturalLength, NumberParts.shownDigits, hgrouping, length_grouped]
  have hroom : signedWidth spec.width - parts.otherLength spec =
      (spec.width.getD 0 - parts.otherLength spec : Nat) := by
    rcases signedWidth_cases hwidth with heq | ⟨_, hzero⟩ <;> omega
  rcases exists_insertGrouping grouping.toChar (groupSizeOf_pos spec) parts.digits
    (spec.width.getD 0 - parts.otherLength spec : Nat) with ⟨zeros, hzeros, htext⟩
  have hdigits : groupedDigits parts spec (groupSizeOf spec) (parts.otherLength spec) =
      grouped grouping.toChar (groupSizeOf spec) (List.replicate zeros '0' ++ parts.digits) := by
    simp [groupedDigits, hgrouping, hnil, hfill, hroom, htext]
  have hlength := hzeros.groupedLength_eq (groupSizeOf_pos spec) (List.length_pos_iff.mpr hnil)
    (by omega)
  refine ⟨grouping, zeros, hgrouping, hdigits, ?_⟩
  rw [hdigits, length_grouped, List.length_append, List.length_replicate, hlength]
  split <;> omega

theorem numberLayout_layoutNumber (hwidth : ∀ w ∈ spec.width, w < 2 ^ 63) :
    NumberLayout spec parts (layoutNumber parts spec (groupSizeOf spec)) := by
  have htext := layoutNumber_eq_padded parts spec (groupSizeOf spec)
  by_cases hextends : parts.ExtendsDigits spec
  · rcases exists_groupedDigits_of_extends hwidth hextends with
      ⟨grouping, zeros, hgrouping, hdigits, hlength⟩
    -- The digits reach the width, so that nothing is left to pad.
    have hpadding : (signedWidth spec.width - parts.otherLength spec
        - (groupedDigits parts spec (groupSizeOf spec) (parts.otherLength spec)).length).toNat =
          0 := by
      rcases signedWidth_cases hwidth with heq | ⟨heq, _⟩ <;> split at hlength <;> omega
    rw [hpadding, Pads.spread_zero] at htext
    apply NumberLayout.extended grouping zeros hextends hgrouping
    · rw [htext, hdigits]
    · rw [htext, NumberParts.length_padded, ← hlength]
      simp [Pads.none]
  · have hdigits := groupedDigits_of_not_extends hwidth hextends
    have hpadding : (signedWidth spec.width - parts.otherLength spec
        - (parts.shownDigits spec).length).toNat =
          spec.width.getD 0 - parts.naturalLength spec := by
      have hnatural : parts.naturalLength spec =
        parts.otherLength spec + (parts.shownDigits spec).length := rfl
      rcases signedWidth_cases hwidth with heq | ⟨heq, hzero⟩ <;> omega
    rw [hdigits, hpadding] at htext
    apply NumberLayout.padded hextends htext
    rw [htext, NumberParts.length_padded, Pads.sum_spread, NumberParts.naturalLength]
    omega

/-! ## Parts of a value -/

/-- Whether a value has a sign of its own: a number below zero, or a float with its sign bit set that
is a number. -/
def isNegative : Value → Bool
  | .int v => v.toInt < 0
  | .float x => x.negative && !x.isNaN
  | .bool _ | .uint _ | .str _ => false

/-- The float that a value is rendered as where the presentation type is one of floats. -/
def asFloat? : Value → Option Binary64
  | .float x => some x
  | v => v.integer?.map Binary.ofInt

/-- The text of a float without its sign, in the case of the presentation type; `%` shows a hundred
times the value. -/
def unsignedText (x : Binary64) (spec : Spec) : List Char :=
  let percent := spec.code = some '%'
  let body := floatBody (if percent then x.scaleBy 100 1 else x).magnitude spec spec.code
  let body :=
    if spec.code = some 'E' ∨ spec.code = some 'F' ∨ spec.code = some 'G' then
      body.map Char.toUpper
    else body
  if percent then body ++ ['%'] else body

/-- The parts that a value shows under a specifier. -/
inductive Shows (spec : Spec) : Value → NumberParts → Prop where
  /-- An integer in the base of the type, behind the mark of the base: the digits are the numeral
  of its magnitude, which they are read as in that base. -/
  | inBase {v : Value} {z : Int} {digits : List Char} :
      v.integer? = some z → spec.code.getD 'd' ∈ numeralCodes →
      digits = (radixOf spec).digits z.natAbs →
      Numeral.readIn? (radixOf spec).base digits = some z.natAbs →
      Shows spec v { negative := z < 0, baseMark := markOf spec, digits }
  /-- An integer as the character of that code point, which is no digit of a number. -/
  | codePoint {v : Value} {z : Int} {c : Char} :
      v.integer? = some z → spec.code = some 'c' → charOfCode? z = some c →
      Shows spec v { negative := false, digits := [], remainder := [c] }
  /-- A float, whose digits are those that its text begins with, and all else the tail. -/
  | float {v : Value} {x : Binary64} {parts : NumberParts} :
      asFloat? v = some x → v.kind = .float ∨ spec.code.getD 'd' ∈ integerAsFloatCodes →
      parts.negative = (x.negative && !x.isNaN) → parts.baseMark = [] →
      parts.digits = (unsignedText x spec).takeWhile Char.isDigit →
      parts.tail = (unsignedText x spec).dropWhile Char.isDigit →
      Shows spec v parts

theorem isNaN_ofRank {F : Format} (negative : Bool) (k : Nat) :
    (⟨negative, .ofRank k⟩ : Binary F).isNaN = false := by
  unfold Binary.isNaN Magnitude.ofRank
  split <;> rfl

theorem isNaN_scaleBy (x : Binary64) (n d : Nat) : (x.scaleBy n d).isNaN = x.isNaN := by
  rcases x with ⟨negative, magnitude⟩
  cases magnitude with
  | finite k =>
      rw [Binary.scaleBy, Magnitude.scaleBy, Magnitude.ofRatio, isNaN_ofRank]
      rfl
  | infinite => rfl
  | nan => rfl

theorem isNegative_of_integer? {v : Value} {z : Int} (hz : v.integer? = some z) :
    isNegative v = decide (z < 0) := by
  cases v with
  | bool b =>
      cases hz
      cases b <;> rfl
  | int i =>
      cases hz
      rfl
  | uint n =>
      cases hz
      have hnonneg : ¬(n.toNat : Int) < 0 := by omega
      simp [isNegative, hnonneg]
  | float x => cases hz
  | str s => cases hz

theorem asFloat?_of_integer? {v : Value} {z : Int} (hz : v.integer? = some z) :
    asFloat? v = some (.ofInt z) := by
  cases v with
  | float x => cases hz
  | _ => exact congrArg (Option.map Binary.ofInt) hz

/-- A float is rendered as itself, and an integer as the nearest float. -/
theorem asFloat?_cases {v : Value} {x : Binary64} (hx : asFloat? v = some x) :
    v = .float x ∨ ∃ z, v.integer? = some z ∧ x = .ofInt z := by
  cases v with
  | float y => exact Or.inl (congrArg Value.float (Option.some.inj hx))
  | str s => cases hx
  | bool b => exact Or.inr ⟨_, rfl, (Option.some.inj hx).symm⟩
  | int i => exact Or.inr ⟨_, rfl, (Option.some.inj hx).symm⟩
  | uint n => exact Or.inr ⟨_, rfl, (Option.some.inj hx).symm⟩

/-- No negative number is a code point. -/
theorem nonneg_of_charOfCode? {z : Int} {c : Char} (h : charOfCode? z = some c) : 0 ≤ z := by
  by_contra hneg
  rw [charOfCode?, if_pos (not_le.mp hneg)] at h
  cases h

/-- What a value shows is negative just if the value is. -/
theorem Shows.negative_eq {v : Value} (h : Shows spec v parts) : parts.negative = isNegative v := by
  cases h with
  | inBase hz _ _ _ => exact (isNegative_of_integer? hz).symm
  | codePoint hz _ hc =>
      have hnonneg := not_lt.mpr (nonneg_of_charOfCode? hc)
      rw [isNegative_of_integer? hz, decide_eq_false hnonneg]
  | float hx _ hnegative _ _ _ =>
      rw [hnegative]
      rcases asFloat?_cases hx with rfl | ⟨z, hz, rfl⟩
      · rfl
      · rw [isNegative_of_integer? hz, Binary.ofInt, Magnitude.ofRatio, isNaN_ofRank, Bool.not_false,
          Bool.and_true]

theorem readIn?_digits_radixOf (spec : Spec) (n : Nat) :
    Numeral.readIn? (radixOf spec).base ((radixOf spec).digits n) = some n := by
  rcases Radix.base_ofCode (spec.code.getD 'd') with ⟨hlow, hbase⟩
  rw [Radix.digits_eq]
  exact Numeral.readIn?_zeros_append (Radix.spells_spell _) (Radix.spell_zero _) hlow hbase 0 n

/-- The text of a float is cut after the digits that it begins with. -/
theorem shows_partsOfBody {v : Value} {x : Binary64} (hx : asFloat? v = some x)
    (hcode : v.kind = .float ∨ spec.code.getD 'd' ∈ integerAsFloatCodes) :
    Shows spec v (partsOfBody (x.negative && !x.isNaN) (unsignedText x spec)) := by
  unfold partsOfBody
  split
  · next remainder hpoint => exact .float hx hcode rfl rfl rfl hpoint.symm
  · exact .float hx hcode rfl rfl rfl rfl

theorem formatFloatAs_eq (x : Binary64) (spec : Spec) :
    formatFloatAs x spec spec.code =
      layoutNumber (partsOfBody (x.negative && !x.isNaN) (unsignedText x spec)) spec 3 := by
  by_cases hpercent : spec.code = some '%'
  · simp only [formatFloatAs, unsignedText, hpercent, if_true, isNaN_scaleBy]
    rfl
  · have hupper : spec.code ∈ [some 'E', some 'F', some 'G'] ↔
        spec.code = some 'E' ∨ spec.code = some 'F' ∨ spec.code = some 'G' := by
      simp only [List.mem_cons, List.not_mem_nil, or_false]
    simp only [formatFloatAs, unsignedText, hpercent, hupper, if_false]

theorem groupSizeOf_eq_three (hcode : spec.code.getD 'd' ∉ Spec.radixCodes) :
    groupSizeOf spec = 3 := by
  simp only [Spec.radixCodes, List.mem_cons, List.not_mem_nil, or_false, not_or] at hcode
  simp [groupSizeOf, radixOf, Radix.ofCode, hcode]

theorem integerAsFloatCodes_apart :
    ∀ code ∈ integerAsFloatCodes, code ≠ 'd' ∧ code ∉ Spec.radixCodes := by
  intro code hcode
  simp only [integerAsFloatCodes, List.mem_cons, List.not_mem_nil, or_false] at hcode
  rcases hcode with rfl | rfl | rfl | rfl | rfl | rfl | rfl <;> decide

theorem floatCodes_apart : ∀ code ∈ floatCodes, code ∉ Spec.radixCodes := by
  intro code hcode
  simp only [floatCodes, List.mem_cons, List.not_mem_nil, or_false] at hcode
  rcases hcode with rfl | rfl | rfl | rfl | rfl | rfl | rfl | rfl <;> decide

theorem code_eq_of_getD (hcode : spec.code.getD 'd' ≠ 'd') :
    spec.code = some (spec.code.getD 'd') := by
  cases h : spec.code with
  | none => simp [h] at hcode
  | some c => rfl

/-- The parts that the layout of a number is given. A string has none. -/
def partsOf? (v : Value) (spec : Spec) : Option NumberParts :=
  if v.kind = .float ∨ spec.code.getD 'd' ∈ integerAsFloatCodes then
    (asFloat? v).map fun x => partsOfBody (x.negative && !x.isNaN) (unsignedText x spec)
  else
    v.integer?.bind fun z =>
      if spec.code.getD 'd' = 'c' then
        (charOfCode? z).map fun c => { negative := false, digits := [], remainder := [c] }
      else
        some
          { negative := z < 0
            baseMark := markOf spec
            digits := (radixOf spec).digits z.natAbs }

/-- An accepted integer is laid out from its parts. -/
theorem exists_parts_of_formatInteger {v : Value} {z : Int} (hz : v.integer? = some z)
    {kind : ValueKind} {text : List Char} (h : formatInteger z spec kind = .ok text) :
    ∃ parts, partsOf? v spec = some parts ∧ Shows spec v parts ∧
      text = layoutNumber parts spec (groupSizeOf spec) := by
  have hinteger : v.kind ≠ .float := by
    cases v with
    | float x => cases hz
    | _ => nofun
  rcases formatInteger_cases h with ⟨hcode, rfl⟩ | ⟨hcode, c, hc, rfl⟩ | ⟨hcode, rfl⟩
  · have hkept : spec.code.getD 'd' ≠ 'd' ∧ spec.code.getD 'd' ∉ Spec.radixCodes :=
      integerAsFloatCodes_apart _ hcode
    have hfloat := asFloat?_of_integer? hz
    refine ⟨_, ?_, shows_partsOfBody hfloat (Or.inr hcode), ?_⟩
    · rw [partsOf?, if_pos (Or.inr hcode), hfloat, Option.map_some]
    · rw [← code_eq_of_getD hkept.1, formatFloatAs_eq, groupSizeOf_eq_three hkept.2]
  · have hother : spec.code.getD 'd' ≠ 'd' := by
      rw [hcode]
      decide
    have hapart : spec.code.getD 'd' ∉ Spec.radixCodes := by
      rw [hcode]
      decide
    have hnot : ¬(v.kind = .float ∨ spec.code.getD 'd' ∈ integerAsFloatCodes) := by
      rw [hcode]
      exact not_or_intro hinteger (by decide)
    refine ⟨_, ?_, .codePoint hz ((code_eq_of_getD hother).trans (congrArg some hcode)) hc, ?_⟩
    · rw [partsOf?, if_neg hnot, hz, Option.bind_some, if_pos hcode, hc, Option.map_some]
    · rw [groupSizeOf_eq_three hapart]
  · rcases numeralCodes_subset _ hcode with ⟨hfloat, _, hcharacter⟩
    refine ⟨_, ?_, .inBase hz hcode rfl (readIn?_digits_radixOf spec z.natAbs), rfl⟩
    rw [partsOf?, if_neg (not_or_intro hinteger hfloat), hz, Option.bind_some, if_neg hcharacter]

/-- An accepted float is laid out from its parts. -/
theorem exists_parts_of_formatFloat {x : Binary64} {text : List Char}
    (h : formatFloat x spec = .ok text) :
    ∃ parts, partsOf? (.float x) spec = some parts ∧ Shows spec (.float x) parts ∧
      text = layoutNumber parts spec (groupSizeOf spec) := by
  refine ⟨_, if_pos (Or.inl rfl), shows_partsOfBody rfl (Or.inl rfl), ?_⟩
  rcases exists_of_bind_eq_ok h with ⟨_, _, hrest⟩
  cases hcode : spec.code with
  | none =>
      rw [hcode] at hrest
      have hapart : spec.code.getD 'd' ∉ Spec.radixCodes := by
        rw [hcode]
        decide
      rw [groupSizeOf_eq_three hapart, ← formatFloatAs_eq, hcode]
      exact (Except.ok.inj hrest).symm
  | some code =>
      simp only [hcode] at hrest
      split at hrest
      · next hfloat =>
        have hapart : spec.code.getD 'd' ∉ Spec.radixCodes := by
          rw [hcode]
          exact floatCodes_apart code hfloat
        rw [groupSizeOf_eq_three hapart, ← formatFloatAs_eq, hcode]
        exact (Except.ok.inj hrest).symm
      · cases hrest

theorem exists_parts_of_formatWith {v : Value} (hv : v.kind ≠ .str) {text : List Char}
    (h : formatWith v spec = .ok text) :
    ∃ parts, partsOf? v spec = some parts ∧ Shows spec v parts ∧
      text = layoutNumber parts spec (groupSizeOf spec) := by
  cases v with
  | bool b => exact exists_parts_of_formatInteger rfl h
  | int i => exact exists_parts_of_formatInteger rfl h
  | uint n => exact exists_parts_of_formatInteger rfl h
  | float x => exact exists_parts_of_formatFloat h
  | str s => exact absurd rfl hv

/-- Every rendering of a number under a specifier of its own is laid out from its parts. -/
theorem formatValue_numberLayout {v : Value} (hv : v.kind ≠ .str) {text : String} (hne : text ≠ "")
    (hspec : Spec.parse v.kind.name text = .ok spec) (hwidth : ∀ w ∈ spec.width, w < 2 ^ 63)
    {s : String} (h : formatValue v text = .ok s) :
    ∃ parts, parts.negative = isNegative v ∧ Shows spec v parts ∧
      NumberLayout spec parts s.toList := by
  rcases exists_formatWith_of_formatValue hne hspec h with ⟨rendered, hrendered, rfl⟩
  rcases exists_parts_of_formatWith hv hrendered with ⟨parts, _, hshows, rfl⟩
  refine ⟨parts, hshows.negative_eq, hshows, ?_⟩
  rw [String.toList_ofList]
  exact numberLayout_layoutNumber hwidth

/-- Grouped digits, zero-padded to eleven characters. -/
def groupedToEleven : Spec where
  zeroPad := true
  width := some 11
  grouping := some .comma

/-- The float `-1234.5`. -/
def minusThousands : Value := .float ⟨true, .finite ⟨0x40934a0000000000, by decide⟩⟩

/-- Eleven characters would put a separator behind the sign, so that there are twelve. -/
theorem formatValue_numberLayout_separatorFirst :
    Spec.parse "float" "011," = .ok groupedToEleven ∧
      formatValue minusThousands "011," = .ok "-0,001,234.5" ∧
      ∃ parts, parts.negative = true ∧ Shows groupedToEleven minusThousands parts ∧
        NumberLayout groupedToEleven parts "-0,001,234.5".toList := by
  have hnumber : minusThousands.kind ≠ .str := by decide
  have hspec : Spec.parse minusThousands.kind.name "011," = .ok groupedToEleven := by
    decide +kernel
  have hwidth : ∀ w ∈ groupedToEleven.width, w < 2 ^ 63 := by
    rintro w ⟨⟩
    decide
  have hshown : formatValue minusThousands "011," = .ok "-0,001,234.5" := by decide +kernel
  exact ⟨hspec, hshown, formatValue_numberLayout hnumber (by decide) hspec hwidth hshown⟩

end Render
end FormatCheck
