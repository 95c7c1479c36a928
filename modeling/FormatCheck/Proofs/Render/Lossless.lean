import Mathlib.Data.List.Basic
import FormatCheck.Proofs.Numeral.Radix
import FormatCheck.Proofs.Outcome
import FormatCheck.Proofs.Render.Grouping
import FormatCheck.Proofs.Render.Pads
import FormatCheck.Proofs.Spec.Defect
import FormatCheck.Render

/-!
# Integers read back from their renderings

A rendering keeps the number. Padding by blanks is dropped together with the separators, padding by
zeros stands between the mark of the base and the digits, where it changes no value, and what is
left is an optional sign, the mark and a numeral.

`readInteger?` is this reading, and `formatValue_lossless` says that it undoes every rendering of an
integer in a base, so that two integers never share one.
-/

namespace FormatCheck
namespace Render

open Numeral (readIn?)

/-! ## Reading a rendering -/

/-- The presentation types that write an integer as a numeral. -/
def numeralCodes : List Char := ['d', 'n', 'b', 'o', 'x', 'X']

/-- The base in which a specifier writes integers. -/
def radixOf (spec : Spec) : Radix := Radix.ofCode (spec.code.getD 'd')

/-- The mark of the base, where the specifier shows it. -/
def markOf (spec : Spec) : List Char := if spec.alternate then (radixOf spec).mark else []

/-- The size of a group of digits: a comma stands between thousands in every base. -/
def groupSizeOf (spec : Spec) : Nat :=
  if spec.grouping = some .comma then 3 else (radixOf spec).groupSize

/-- Whether a character of a rendering is no blank and no separator. -/
def carries (spec : Spec) (c : Char) : Bool :=
  c ≠ ' ' && spec.grouping.map Grouping.toChar ≠ some c

/-- Reads a numeral after the mark of its base. -/
def readMarked? (spec : Spec) (s : List Char) : Option Nat :=
  (s.dropPrefix? (markOf spec)).bind (readIn? (radixOf spec).base)

/-- Reads a numeral after an optional sign and the mark of its base. -/
def readSigned? (spec : Spec) : List Char → Option Int
  | '-' :: s => (readMarked? spec s).map fun n : Nat => -(n : Int)
  | '+' :: s => (readMarked? spec s).map fun n : Nat => (n : Int)
  | s => (readMarked? spec s).map fun n : Nat => (n : Int)

/-- Reads the rendering of an integer without its blanks and separators. -/
def readInteger? (spec : Spec) (s : String) : Option Int :=
  readSigned? spec (s.toList.filter (carries spec))

/-- Padding that cannot be taken for digits of the number: blanks anywhere, or zeros after the sign. -/
def FillsApart (spec : Spec) : Prop :=
  (spec.resolveFill .right).1 = ' ' ∨ spec.resolveFill .right = ('0', .afterSign)

/-! ## Layout -/

variable {spec : Spec} {c : Char} {parts : NumberParts}

/-- Only blanks, commas and underscores are ever dropped. -/
theorem carries_of_not_mem (hc : c ∉ [' ', ',', '_']) (spec : Spec) : carries spec c = true := by
  simp only [List.mem_cons, List.not_mem_nil, or_false, not_or] at hc
  rcases hc with ⟨hspace, hcomma, hunderscore⟩
  cases h : spec.grouping with
  | none => simp [carries, h, hspace]
  | some grouping =>
      cases grouping with
      | comma => simp [carries, h, hspace, Grouping.toChar, Ne.symm hcomma]
      | underscore => simp [carries, h, hspace, Grouping.toChar, Ne.symm hunderscore]

theorem carries_zero (spec : Spec) : carries spec '0' = true :=
  carries_of_not_mem (by decide) spec

theorem carries_space (spec : Spec) : carries spec ' ' = false := by
  simp [carries]

/-- What is kept of the grouped digits are the digits after any number of zeros. -/
theorem filter_groupedDigits (hdigits : ∀ c ∈ parts.digits, carries spec c = true)
    {groupSize : Nat} (hsize : 0 < groupSize) (otherLength : Nat) :
    ∃ zeros, (groupedDigits parts spec groupSize otherLength).filter (carries spec) =
      List.replicate zeros '0' ++ parts.digits := by
  unfold groupedDigits
  cases hgrouping : spec.grouping with
  | none =>
      exact ⟨0, by simpa using hdigits⟩
  | some grouping =>
      by_cases hnil : parts.digits = []
      · exact ⟨0, by simp [hnil]⟩
      · have hseparator : carries spec grouping.toChar = false := by simp [carries, hgrouping]
        simp only [hnil, if_false]
        exact filter_insertGrouping hseparator (carries_zero spec) hsize hdigits _

/-- What is kept of a laid-out number are its sign, unless that is a blank, its mark and its digits
after any number of zeros. -/
theorem filter_layoutNumber (hfill : FillsApart spec)
    (hmark : ∀ c ∈ parts.baseMark, carries spec c = true)
    (hdigits : ∀ c ∈ parts.digits, carries spec c = true) (htail : parts.tail = [])
    {groupSize : Nat} (hsize : 0 < groupSize) :
    ∃ zeros, (layoutNumber parts spec groupSize).filter (carries spec) =
      (signText parts.negative spec.sign).filter (carries spec) ++ parts.baseMark
        ++ (List.replicate zeros '0' ++ parts.digits) := by
  rcases filter_groupedDigits hdigits hsize (parts.otherLength spec) with ⟨zeros, hzeros⟩
  have hkept : parts.baseMark.filter (carries spec) = parts.baseMark :=
    List.filter_eq_self.mpr hmark
  rw [layoutNumber_eq_padded, NumberParts.padded, htail]
  generalize (signedWidth spec.width - parts.otherLength spec
    - (groupedDigits parts spec groupSize (parts.otherLength spec)).length).toNat = padding
  rcases hfill with hspace | hzero
  · -- Pads of blanks are dropped wherever they stand.
    refine ⟨zeros, ?_⟩
    simp [hspace, carries_space, hkept, hzeros]
  · -- Zeros stand between the mark and the digits alone.
    refine ⟨padding + zeros, ?_⟩
    simp [hzero, Pads.spread, hkept, hzeros, carries_zero, ← List.replicate_append_replicate]

/-! ## Characters -/

/-- The characters that a rendering puts before and between the digits of a number. -/
def punctuation : List Char := [' ', ',', '_', '-', '+']

theorem carries_of_not_mem_punctuation (hc : c ∉ punctuation) (spec : Spec) :
    carries spec c = true := by
  refine carries_of_not_mem ?_ spec
  intro hdropped
  have hsubset : [' ', ',', '_'] ⊆ punctuation := by decide
  exact hc (hsubset hdropped)

theorem hexValue?_of_mem_punctuation : ∀ c ∈ punctuation, Json.hexValue? c = none := by
  intro c hc
  simp only [punctuation, List.mem_cons, List.not_mem_nil, or_false] at hc
  rcases hc with rfl | rfl | rfl | rfl | rfl <;> rfl

theorem spell_not_mem {spell : Nat → Char} (hspell : Numeral.Spells spell) {d : Nat} (hd : d < 16) :
    spell d ∉ punctuation := by
  intro hmem
  have hnone := hexValue?_of_mem_punctuation _ hmem
  rw [hspell d hd] at hnone
  cases hnone

namespace Radix

/-- How a digit is written. -/
def spell (radix : Radix) : Nat → Char :=
  if radix.upper then Numeral.upperDigitChar else Numeral.digitChar

theorem digits_eq (radix : Radix) (n : Nat) :
    radix.digits n = (Numeral.digits radix.base n).map radix.spell := by
  unfold digits spell
  split
  · rfl
  · rfl

theorem spells_spell (radix : Radix) : Numeral.Spells radix.spell := by
  unfold spell
  split
  · exact Numeral.spells_upperDigitChar
  · exact Numeral.spells_digitChar

theorem spell_zero (radix : Radix) : radix.spell 0 = '0' := by
  unfold spell
  split
  · rfl
  · rfl

variable (code : Char)

theorem base_ofCode : 1 < (ofCode code).base ∧ (ofCode code).base ≤ 16 := by
  unfold ofCode
  split_ifs
  all_goals decide

theorem groupSize_ofCode_pos : 0 < (ofCode code).groupSize := by
  unfold ofCode
  split_ifs
  all_goals decide

theorem not_mem_of_mem_mark_ofCode : ∀ c ∈ (ofCode code).mark, c ∉ punctuation := by
  have hall : (ofCode code).mark.all (fun c => c ∉ punctuation) = true := by
    unfold ofCode
    split_ifs
    all_goals decide
  intro c hc
  exact of_decide_eq_true (List.all_eq_true.mp hall c hc)

theorem not_mem_of_mem_digits {radix : Radix} (hlow : 1 < radix.base) (hbase : radix.base ≤ 16)
    (n : Nat) : ∀ c ∈ radix.digits n, c ∉ punctuation := by
  intro c hc
  rw [digits_eq] at hc
  rcases List.mem_map.mp hc with ⟨d, hd, rfl⟩
  have hlt : d < radix.base := Numeral.lt_of_mem_digits hlow hd
  exact spell_not_mem radix.spells_spell (Nat.lt_of_lt_of_le hlt hbase)

end Radix

theorem groupSizeOf_pos (spec : Spec) : 0 < groupSizeOf spec := by
  unfold groupSizeOf
  split
  · decide
  · exact Radix.groupSize_ofCode_pos _

/-! ## Reading back -/

theorem not_mem_of_mem_markOf (spec : Spec) : ∀ c ∈ markOf spec, c ∉ punctuation := by
  unfold markOf
  split
  · exact Radix.not_mem_of_mem_mark_ofCode _
  · intro c hc
    cases hc

/-- The numeral of a magnitude with the mark of its base and zeros after the mark. -/
def markedNumeral (spec : Spec) (zeros n : Nat) : List Char :=
  markOf spec ++ (List.replicate zeros '0' ++ (radixOf spec).digits n)

theorem not_mem_of_mem_markedNumeral (spec : Spec) (zeros n : Nat) :
    ∀ c ∈ markedNumeral spec zeros n, c ∉ punctuation := by
  intro c hc
  rcases Radix.base_ofCode (spec.code.getD 'd') with ⟨hlow, hbase⟩
  rcases List.mem_append.mp hc with hmark | hrest
  · exact not_mem_of_mem_markOf spec c hmark
  · rcases List.mem_append.mp hrest with hfill | hdigit
    · rw [List.eq_of_mem_replicate hfill]
      decide
    · exact Radix.not_mem_of_mem_digits hlow hbase n c hdigit

theorem readMarked?_markedNumeral (spec : Spec) (zeros n : Nat) :
    readMarked? spec (markedNumeral spec zeros n) = some n := by
  rcases Radix.base_ofCode (spec.code.getD 'd') with ⟨hlow, hbase⟩
  have hmark : (markedNumeral spec zeros n).dropPrefix? (markOf spec) =
      some (List.replicate zeros '0' ++ (radixOf spec).digits n) :=
    List.dropPrefix?_append_of_beq _ (beq_self_eq_true (markOf spec))
  rw [readMarked?, hmark, Radix.digits_eq]
  exact Numeral.readIn?_zeros_append (Radix.spells_spell _) (Radix.spell_zero _) hlow hbase zeros n

/-- Without a sign a number is not negative. -/
theorem readSigned?_markedNumeral (spec : Spec) (zeros n : Nat) :
    readSigned? spec (markedNumeral spec zeros n) = some (n : Int) := by
  have hplain := not_mem_of_mem_markedNumeral spec zeros n
  have hread := readMarked?_markedNumeral spec zeros n
  generalize markedNumeral spec zeros n = s at hplain hread
  unfold readSigned?
  split
  -- A sign at the front would be a character of the numeral.
  · exact absurd (hplain '-' List.mem_cons_self) (by decide)
  · exact absurd (hplain '+' List.mem_cons_self) (by decide)
  · rw [hread, Option.map_some]

/-- The sign that is left when blanks are dropped says whether the number is negative. -/
theorem readSigned?_signText (spec : Spec) (zeros : Nat) (z : Int) :
    readSigned? spec ((signText (z < 0) spec.sign).filter (carries spec)
      ++ markedNumeral spec zeros z.natAbs) = some z := by
  have hread := readMarked?_markedNumeral spec zeros z.natAbs
  have hunsigned := readSigned?_markedNumeral spec zeros z.natAbs
  have hminus : carries spec '-' = true := carries_of_not_mem (by decide) spec
  have hplus : carries spec '+' = true := carries_of_not_mem (by decide) spec
  by_cases hz : z < 0
  · have habs : -(z.natAbs : Int) = z := by omega
    have hsign : (signText (z < 0) spec.sign).filter (carries spec) = ['-'] := by
      simp [signText, hz, hminus]
    rw [hsign, List.singleton_append, readSigned?, hread, Option.map_some, habs]
  · have habs : (z.natAbs : Int) = z := by omega
    rw [habs] at hunsigned
    cases hsign : spec.sign with
    | none => simpa [signText, hz] using hunsigned
    | some sign =>
        cases sign with
        | always =>
            have hshown : (signText (z < 0) (some .always)).filter (carries spec) = ['+'] := by
              simp [signText, hz, hplus]
            rw [hshown, List.singleton_append, readSigned?, hread, Option.map_some, habs]
        | space => simpa [signText, hz, carries_space] using hunsigned
        | negativeOnly => simpa [signText, hz] using hunsigned

/-- A laid-out integer reads back as the integer. -/
theorem readInteger?_formatRadix (hfill : FillsApart spec) (z : Int) :
    readInteger? spec (String.ofList (formatRadix z spec (radixOf spec))) = some z := by
  have hbase := Radix.base_ofCode (spec.code.getD 'd')
  have hmark : ∀ c ∈ markOf spec, carries spec c = true := by
    intro c hc
    exact carries_of_not_mem_punctuation (not_mem_of_mem_markOf spec c hc) spec
  have hdigits : ∀ c ∈ (radixOf spec).digits z.natAbs, carries spec c = true := by
    intro c hc
    have hplain := Radix.not_mem_of_mem_digits hbase.1 hbase.2 z.natAbs c hc
    exact carries_of_not_mem_punctuation hplain spec
  let parts : NumberParts := ⟨z < 0, markOf spec, (radixOf spec).digits z.natAbs, false, []⟩
  have htail : parts.tail = [] := rfl
  rcases filter_layoutNumber hfill hmark hdigits htail (groupSizeOf_pos spec) with ⟨zeros, hzeros⟩
  have hfilter : (formatRadix z spec (radixOf spec)).filter (carries spec) =
      (signText (z < 0) spec.sign).filter (carries spec) ++ markedNumeral spec zeros z.natAbs :=
    hzeros.trans (List.append_assoc _ _ _)
  rw [readInteger?, String.toList_ofList, hfilter, readSigned?_signText]

theorem numeralCodes_subset :
    ∀ code ∈ numeralCodes, code ∉ integerAsFloatCodes ∧ code ∈ integerCodes ∧ code ≠ 'c' := by
  intro code hcode
  simp only [numeralCodes, List.mem_cons, List.not_mem_nil, or_false] at hcode
  rcases hcode with rfl | rfl | rfl | rfl | rfl | rfl <;> decide

theorem numeralCodes_of_integerCodes :
    ∀ code ∈ integerCodes, code ≠ 'c' → code ∈ numeralCodes := by
  intro code hcode
  simp only [integerCodes, List.mem_cons, List.not_mem_nil, or_false] at hcode
  rcases hcode with rfl | rfl | rfl | rfl | rfl | rfl | rfl <;> decide

/-- An accepted integer is written in a base, as a character or as a float. -/
theorem formatInteger_cases {z : Int} {kind : ValueKind} {text : List Char}
    (h : formatInteger z spec kind = .ok text) :
    spec.code.getD 'd' ∈ integerAsFloatCodes ∧
        text = formatFloatAs (.ofInt z) spec (some (spec.code.getD 'd')) ∨
      (spec.code.getD 'd' = 'c' ∧ ∃ c, charOfCode? z = some c ∧
        text = layoutNumber { negative := false, digits := [], remainder := [c] } spec 3) ∨
      spec.code.getD 'd' ∈ numeralCodes ∧ text = formatRadix z spec (radixOf spec) := by
  rcases exists_of_bind_eq_ok h with ⟨_, _, hrest⟩
  split at hrest
  · next hfloat => exact Or.inl ⟨hfloat, (Except.ok.inj hrest).symm⟩
  · split at hrest
    · cases hrest
    · next hinteger =>
      split at hrest
      · cases hrest
      · split at hrest
        · next hchar =>
          unfold formatCodePoint at hrest
          split at hrest
          · cases hrest
          · split at hrest
            · cases hrest
            · split at hrest
              · cases hrest
              · next c hc =>
                exact Or.inr (Or.inl ⟨hchar, c, hc, (Except.ok.inj hrest).symm⟩)
        · next hchar =>
          have hnumeral := numeralCodes_of_integerCodes _ (not_not.mp hinteger) hchar
          exact Or.inr (Or.inr ⟨hnumeral, (Except.ok.inj hrest).symm⟩)

/-- An integer that is rendered under one of these presentation types is written in their base. -/
theorem eq_formatRadix_of_formatInteger (hcode : spec.code.getD 'd' ∈ numeralCodes) {z : Int}
    {kind : ValueKind} {text : List Char} (h : formatInteger z spec kind = .ok text) :
    text = formatRadix z spec (radixOf spec) := by
  rcases numeralCodes_subset _ hcode with ⟨hfloat, _, hchar⟩
  rcases formatInteger_cases h with ⟨hcode', _⟩ | ⟨hcode', _⟩ | ⟨_, htext⟩
  · exact absurd hcode' hfloat
  · exact absurd hcode' hchar
  · exact htext

/-- An integral value is rendered as its number, a boolean under a name of its own. -/
theorem exists_formatWith_integer {v : Value} {z : Int} (hz : v.integer? = some z) (spec : Spec) :
    ∃ kind, formatWith v spec = formatInteger z spec kind := by
  cases v with
  | bool b =>
      cases hz
      exact ⟨.bool, rfl⟩
  | int i =>
      cases hz
      exact ⟨.int, rfl⟩
  | uint n =>
      cases hz
      exact ⟨.int, rfl⟩
  | float x => cases hz
  | str s => cases hz

/-! ## Rendered values -/

/-- What a specifier is read as does not depend on the type that it is read for. -/
theorem parse_eq_ok_of_eq_ok {typeName text : String} (h : Spec.parse typeName text = .ok spec)
    (typeName' : String) : Spec.parse typeName' text = .ok spec := by
  exact Spec.Cut.parse_eq_ok_iff.mpr (Spec.Cut.parse_eq_ok_iff.mp h)

/-- A value rendered under a specifier of its own is rendered under what the specifier is read as. -/
theorem exists_formatWith_of_formatValue {v : Value} {text s : String} (hne : text ≠ "")
    (hspec : Spec.parse v.kind.name text = .ok spec) (h : formatValue v text = .ok s) :
    ∃ rendered, formatWith v spec = .ok rendered ∧ s = String.ofList rendered := by
  have hnonempty : text.isEmpty = false := by simpa using hne
  simp only [formatValue, hnonempty] at h
  rcases exists_of_bind_eq_ok h with ⟨parsed, hparsed, hrest⟩
  cases hspec.symm.trans hparsed
  rcases exists_of_bind_eq_ok hrest with ⟨rendered, hrendered, hs⟩
  exact ⟨rendered, hrendered, (Except.ok.inj hs).symm⟩

theorem readInteger?_of_formatValue {text typeName s : String} (hne : text ≠ "")
    (hspec : Spec.parse typeName text = .ok spec) (hcode : spec.code.getD 'd' ∈ numeralCodes)
    (hfill : FillsApart spec) {v : Value} {z : Int} (hz : v.integer? = some z)
    (h : formatValue v text = .ok s) : readInteger? spec s = some z := by
  rcases exists_formatWith_of_formatValue hne (parse_eq_ok_of_eq_ok hspec v.kind.name) h with
    ⟨rendered, hrendered, rfl⟩
  rcases exists_formatWith_integer hz spec with ⟨kind, hkind⟩
  rw [hkind] at hrendered
  rw [eq_formatRadix_of_formatInteger hcode hrendered]
  exact readInteger?_formatRadix hfill z

/-- Under a specifier that writes integers in a base and pads apart from the digits, every rendering
of an integral value reads back as its number, so no two numbers share a rendering. -/
theorem formatValue_lossless {text typeName : String} (hne : text ≠ "")
    (hspec : Spec.parse typeName text = .ok spec) (hcode : spec.code.getD 'd' ∈ numeralCodes)
    (hfill : FillsApart spec) :
    (∀ v z s, v.integer? = some z → formatValue v text = .ok s → readInteger? spec s = some z) ∧
      (∀ v w z z' s, v.integer? = some z → w.integer? = some z' →
        formatValue v text = .ok s → formatValue w text = .ok s → z = z') := by
  constructor
  · intro v z s hz h
    exact readInteger?_of_formatValue hne hspec hcode hfill hz h
  · intro v w z z' s hz hz' h h'
    have hread := readInteger?_of_formatValue hne hspec hcode hfill hz h
    have hread' := readInteger?_of_formatValue hne hspec hcode hfill hz' h'
    exact Option.some.inj (hread.symm.trans hread')

/-- Grouped hexadecimal digits, zero-padded behind the mark to at least thirty characters. -/
def paddedHex : Spec where
  alternate := true
  zeroPad := true
  width := some 30
  grouping := some .underscore
  code := some 'x'

/-- The least signed and the greatest unsigned number, and a boolean, whose leading group would have
begun with a separator. -/
theorem formatValue_lossless_paddedHex :
    Spec.parse "int" "#030_x" = .ok paddedHex ∧
      FillsApart paddedHex ∧
      formatValue (.int Int64.minValue) "#030_x" = .ok "-0x00_0000_8000_0000_0000_0000" ∧
      readInteger? paddedHex "-0x00_0000_8000_0000_0000_0000" = some (-(2 ^ 63)) ∧
      formatValue (.uint 18446744073709551615) "#030_x" = .ok "0x000_0000_ffff_ffff_ffff_ffff" ∧
      readInteger? paddedHex "0x000_0000_ffff_ffff_ffff_ffff" = some (2 ^ 64 - 1) ∧
      formatValue (.bool true) "#030_x" = .ok "0x000_0000_0000_0000_0000_0001" ∧
      ∀ v z, v.integer? = some z →
        formatValue v "#030_x" = .ok "0x000_0000_0000_0000_0000_0001" → z = 1 := by
  have hspec : Spec.parse "int" "#030_x" = .ok paddedHex := by decide +kernel
  have hfill : FillsApart paddedHex := Or.inr (by decide)
  have hleast : formatValue (.int Int64.minValue) "#030_x" =
      .ok "-0x00_0000_8000_0000_0000_0000" := by decide +kernel
  have hgreatest : formatValue (.uint 18446744073709551615) "#030_x" =
      .ok "0x000_0000_ffff_ffff_ffff_ffff" := by decide +kernel
  have htrue : formatValue (.bool true) "#030_x" = .ok "0x000_0000_0000_0000_0000_0001" := by
    decide +kernel
  rcases formatValue_lossless (by decide) hspec (by decide) hfill with ⟨hread, hinjective⟩
  exact ⟨hspec, hfill, hleast, hread _ _ _ (by decide +kernel) hleast,
    hgreatest, hread _ _ _ (by decide +kernel) hgreatest, htrue,
    fun v z hz h => hinjective v (.bool true) z 1 _ hz rfl h htrue⟩

end Render
end FormatCheck
