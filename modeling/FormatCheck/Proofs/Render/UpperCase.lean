import FormatCheck.Proofs.Render.NumberLayout

/-!
# Upper-case presentation types

The presentation types `x`, `e`, `f` and `g` have upper-case forms, and `formatWith_upper` says that
these change the case of a rendering and nothing else. Case is decided in three places, each with a
section of its own:

1. the digits and the mark of a base, which `X` has forms of;
2. the body of a float, turned to upper case before it is cut into digits and remainder;
3. the lists of types that the checks of separators, integers and floats go by.

Between the first two and the rendering stands the layout of numbers, which does not see the case of
what it lays out: its own characters have no lower-case letters, unless the fill is one.
-/

namespace FormatCheck

/-- The specifier with the upper-case form of its presentation type. -/
def Spec.upper (spec : Spec) : Spec := { spec with code := spec.code.map Char.toUpper }

/-- The rejection with the presentation type that it names in upper case. -/
def FormatError.upper : FormatError → FormatError
  | .groupingNotAllowed separator code => .groupingNotAllowed separator code.toUpper
  | .unknownCode code kind => .unknownCode code.toUpper kind
  | e => e

namespace Render

/-- The presentation types of floats with an upper-case form. -/
def casedFloatCodes : List Char := ['e', 'f', 'g']

/-- The presentation types with an upper-case form. -/
def casedCodes : List Char := 'x' :: casedFloatCodes

/-- The outcome in upper case: a text is turned to upper case, and a rejection names the upper-case
type. -/
def upperOutcome : Except FormatError (List Char) → Except FormatError (List Char)
  | .ok text => .ok (text.map Char.toUpper)
  | .error e => .error e.upper

variable {spec : Spec} {c : Char}

theorem casedFloatCodes_cases (hc : c ∈ casedFloatCodes) : c = 'e' ∨ c = 'f' ∨ c = 'g' := by
  simpa [casedFloatCodes] using hc

theorem casedCodes_cases (hc : c ∈ casedCodes) : c = 'x' ∨ c ∈ casedFloatCodes :=
  List.mem_cons.mp hc

/-! ## Characters -/

theorem isLower_iff : c.isLower = true ↔ 'a'.val ≤ c.val ∧ c.val ≤ 'z'.val := by
  have hdef : c.isLower = (decide ('a'.val ≤ c.val) && decide (c.val ≤ 'z'.val)) := rfl
  rw [hdef, Bool.and_eq_true, decide_eq_true_iff, decide_eq_true_iff]

theorem toUpper_of_not_isLower (h : c.isLower = false) : c.toUpper = c := by
  have hletter : ¬ ('a'.val ≤ c.val ∧ c.val ≤ 'z'.val) := by
    rw [← isLower_iff, h]
    exact Bool.false_ne_true
  exact dif_neg hletter

/-- What turning to upper case changes, and what it makes of it, is no digit and no point. -/
theorem toUpper_cases (c : Char) :
    c.toUpper = c ∨
      (c.isDigit = false ∧ c.toUpper.isDigit = false) ∧ c ≠ '.' ∧ c.toUpper ≠ '.' := by
  cases hlower : c.isLower with
  | false => exact Or.inl (toUpper_of_not_isLower hlower)
  | true =>
      have hletters : ∀ n < 26, ((Char.ofNat (97 + n)).isDigit = false ∧
          (Char.ofNat (97 + n)).toUpper.isDigit = false) ∧
            Char.ofNat (97 + n) ≠ '.' ∧ (Char.ofNat (97 + n)).toUpper ≠ '.' := by
        decide
      have hrange : 97 ≤ c.toNat ∧ c.toNat ≤ 122 :=
        (isLower_iff.mp hlower).imp UInt32.le_iff_toNat_le.mp UInt32.le_iff_toNat_le.mp
      have hletter := hletters (c.toNat - 97) (by omega)
      rw [Nat.add_sub_cancel' hrange.1, Char.ofNat_toNat] at hletter
      exact Or.inr hletter

theorem isDigit_toUpper (c : Char) : c.toUpper.isDigit = c.isDigit := by
  rcases toUpper_cases c with heq | ⟨⟨hc, hupper⟩, _⟩
  · rw [heq]
  · rw [hc, hupper]

theorem toUpper_eq_point_iff : c.toUpper = '.' ↔ c = '.' := by
  rcases toUpper_cases c with heq | ⟨_, hc, hupper⟩
  · rw [heq]
  · exact ⟨fun h => absurd h hupper, fun h => absurd h hc⟩

theorem isDigit_comp_toUpper : Char.isDigit ∘ Char.toUpper = Char.isDigit := funext isDigit_toUpper

theorem takeWhile_isDigit_upper (s : List Char) :
    (s.map Char.toUpper).takeWhile Char.isDigit =
      (s.takeWhile Char.isDigit).map Char.toUpper := by
  rw [List.takeWhile_map, isDigit_comp_toUpper]

theorem dropWhile_isDigit_upper (s : List Char) :
    (s.map Char.toUpper).dropWhile Char.isDigit =
      (s.dropWhile Char.isDigit).map Char.toUpper := by
  rw [List.dropWhile_map, isDigit_comp_toUpper]

/-! ## Layouts -/

/-- The parts of a number in upper case. -/
def NumberParts.upper (parts : NumberParts) : NumberParts :=
  { parts with
    baseMark := parts.baseMark.map Char.toUpper
    digits := parts.digits.map Char.toUpper
    remainder := parts.remainder.map Char.toUpper }

theorem groupReversed_upper {separator : Char} (hseparator : separator.toUpper = separator)
    (size : Nat) (digits : List Char) (minWidth : Int) :
    groupReversed separator size (digits.map Char.toUpper) minWidth =
      (groupReversed separator size digits minWidth).map Char.toUpper := by
  have hzero : Char.toUpper '0' = '0' := rfl
  -- The loop counts characters, and there are as many in upper case.
  fun_induction groupReversed separator size digits minWidth with
  | case1 digits minWidth count chunk missing hlast =>
      rw [groupReversed]
      simp only [List.length_map]
      rw [if_pos hlast]
      simp only [chunk, List.map_append, List.map_take, List.map_replicate, hzero]
      rfl
  | case2 digits minWidth count chunk missing hmore ih =>
      rw [groupReversed]
      simp only [List.length_map]
      rw [if_neg hmore, ← List.map_drop, ih]
      simp only [chunk, List.map_append, List.map_cons, List.map_take, List.map_replicate, hzero,
        hseparator]
      rfl

theorem insertGrouping_upper {separator : Char} (hseparator : separator.toUpper = separator)
    (size : Nat) (digits : List Char) (minWidth : Int) :
    insertGrouping separator size (digits.map Char.toUpper) minWidth =
      (insertGrouping separator size digits minWidth).map Char.toUpper := by
  rw [insertGrouping, ← List.map_reverse, groupReversed_upper hseparator, ← List.map_reverse]
  rfl

theorem toUpper_separator (g : Grouping) : g.toChar.toUpper = g.toChar := by
  cases g <;> rfl

theorem groupedDigits_upper (parts : NumberParts) (spec : Spec) (groupSize otherLength : Nat) :
    groupedDigits parts.upper spec groupSize otherLength =
      (groupedDigits parts spec groupSize otherLength).map Char.toUpper := by
  unfold groupedDigits
  cases hgrouping : spec.grouping with
  | none => rfl
  | some g =>
      by_cases hnil : parts.digits = []
      · simp [NumberParts.upper, hnil]
      · simp only [NumberParts.upper, List.map_eq_nil_iff, hnil, if_false]
        exact insertGrouping_upper (toUpper_separator g) _ _ _

theorem signText_upper (negative : Bool) (sign : Option Sign) :
    (signText negative sign).map Char.toUpper = signText negative sign := by
  cases negative with
  | true => rfl
  | false =>
      cases sign with
      | none => rfl
      | some sign => cases sign <;> rfl

theorem tail_upper (parts : NumberParts) : parts.upper.tail = parts.tail.map Char.toUpper := by
  unfold NumberParts.tail NumberParts.upper
  cases parts.hasPoint with
  | true => rfl
  | false => rfl

theorem otherLength_upper (parts : NumberParts) (spec : Spec) :
    parts.upper.otherLength spec = parts.otherLength spec := by
  rw [NumberParts.otherLength, NumberParts.otherLength, tail_upper]
  simp [NumberParts.upper]

/-- A fill that is no lower-case letter stays as it is. -/
theorem toUpper_resolveFill (hfill : ∀ c ∈ spec.fill, c.isLower = false) :
    (spec.resolveFill .right).1.toUpper = (spec.resolveFill .right).1 := by
  -- Only a fill that is asked for can be a letter: the others are a zero and a blank.
  unfold Spec.resolveFill
  cases spec.zeroPad with
  | true => rfl
  | false =>
      cases h : spec.fill with
      | none => rfl
      | some c => exact toUpper_of_not_isLower (hfill c h)

/-- The layout of a number does not see the case of its parts. -/
theorem layoutNumber_upper (hfill : ∀ c ∈ spec.fill, c.isLower = false) (parts : NumberParts)
    (groupSize : Nat) :
    layoutNumber parts.upper spec groupSize =
      (layoutNumber parts spec groupSize).map Char.toUpper := by
  rw [layoutNumber_eq_padded, layoutNumber_eq_padded, otherLength_upper, groupedDigits_upper,
    List.length_map]
  simp only [NumberParts.padded, List.map_append, List.map_replicate, toUpper_resolveFill hfill,
    signText_upper, tail_upper]
  rfl

/-! ## Integers -/

theorem upperDigitChar_eq : ∀ d < 16, Numeral.upperDigitChar d = (Numeral.digitChar d).toUpper := by
  decide

/-- The digits and the mark of `X` are those of `x` in upper case. -/
theorem upperText_eq (n : Nat) :
    Numeral.upperText 16 n = (Numeral.text 16 n).map Char.toUpper := by
  rw [Numeral.upperText, Numeral.text, List.map_map]
  apply List.map_congr_left
  intro d hd
  exact upperDigitChar_eq d (Numeral.lt_of_mem_digits (by decide) hd)

theorem formatRadix_upper (hfill : ∀ c ∈ spec.fill, c.isLower = false) (z : Int) :
    formatRadix z spec (.ofCode 'X') = (formatRadix z spec (.ofCode 'x')).map Char.toUpper := by
  have hdigits : (Radix.ofCode 'X').digits z.natAbs =
      ((Radix.ofCode 'x').digits z.natAbs).map Char.toUpper := upperText_eq z.natAbs
  have hmark : (if spec.alternate then (Radix.ofCode 'X').mark else []) =
      (if spec.alternate then (Radix.ofCode 'x').mark else []).map Char.toUpper := by
    cases spec.alternate with
    | true => rfl
    | false => rfl
  rw [formatRadix, formatRadix, ← layoutNumber_upper hfill, hdigits, hmark]
  rfl

/-! ## Floats -/

theorem partsOfBody_upper (negative : Bool) (body : List Char) :
    partsOfBody negative (body.map Char.toUpper) = (partsOfBody negative body).upper := by
  unfold partsOfBody
  rw [takeWhile_isDigit_upper, dropWhile_isDigit_upper]
  cases hrest : body.dropWhile Char.isDigit with
  | nil => rfl
  | cons c rest =>
      by_cases hpoint : c = '.'
      · subst hpoint
        rfl
      · have hupper : c.toUpper ≠ '.' := mt toUpper_eq_point_iff.mp hpoint
        simp [NumberParts.upper, hpoint, hupper]

theorem code_upper (hcode : spec.code = some c) : spec.upper.code = some c.toUpper :=
  congrArg (Option.map Char.toUpper) hcode

/-- Under an upper-case type the text of a float is that of the lower-case one in upper case, `inf`,
`nan` and the mark of an exponent included. -/
theorem unsignedText_upper (hcode : spec.code = some c) (hc : c ∈ casedFloatCodes) (x : Binary64) :
    unsignedText x spec.upper = (unsignedText x spec).map Char.toUpper := by
  -- The body is written in lower case under both forms; it is turned to upper case afterwards.
  have hbody : floatBody x.magnitude spec.upper (some c.toUpper) =
      floatBody x.magnitude spec (some c) := by
    cases x.magnitude with
    | nan => rfl
    | infinite => rfl
    | finite k => rcases casedFloatCodes_cases hc with rfl | rfl | rfl <;> rfl
  have hplain : c ≠ '%' ∧ c.toUpper ≠ '%' ∧ c ∉ ['E', 'F', 'G'] ∧ c.toUpper ∈ ['E', 'F', 'G'] := by
    rcases casedFloatCodes_cases hc with rfl | rfl | rfl <;> decide
  rcases hplain with ⟨hpercent, hpercent', hlower, hupper⟩
  simp only [List.mem_cons, List.not_mem_nil, or_false, not_or] at hlower hupper
  simp [unsignedText, hcode, code_upper hcode, hpercent, hpercent', hlower, hupper, hbody]

theorem formatFloatAs_upper (hfill : ∀ c ∈ spec.fill, c.isLower = false)
    (hcode : spec.code = some c) (hc : c ∈ casedFloatCodes) (x : Binary64) :
    formatFloatAs x spec.upper spec.upper.code =
      (formatFloatAs x spec spec.code).map Char.toUpper := by
  rw [formatFloatAs_eq, formatFloatAs_eq, unsignedText_upper hcode hc, partsOfBody_upper,
    ← layoutNumber_upper hfill]
  rfl

/-! ## Checks -/

/-- The lists of types hold an upper-case form just if they hold the type. -/
theorem toUpper_mem_iff (codes : List Char) (hcodes : codes ∈ [Spec.decimalCodes, Spec.radixCodes,
    integerAsFloatCodes, floatCodes]) (hc : c ∈ casedCodes) : c.toUpper ∈ codes ↔ c ∈ codes := by
  have hletter : c = 'x' ∨ c = 'e' ∨ c = 'f' ∨ c = 'g' :=
    (casedCodes_cases hc).imp_right casedFloatCodes_cases
  simp only [List.mem_cons, List.not_mem_nil, or_false] at hcodes
  rcases hcodes with rfl | rfl | rfl | rfl
  all_goals rcases hletter with rfl | rfl | rfl | rfl <;> decide

/-- A separator is refused with both forms of a type or with neither. -/
theorem checkGrouping_upper (hc : c ∈ casedCodes) :
    spec.upper.checkGrouping (some c.toUpper) =
      (spec.checkGrouping (some c)).mapError FormatError.upper := by
  have hdecimal := toUpper_mem_iff Spec.decimalCodes (by decide) hc
  have hradix := toUpper_mem_iff Spec.radixCodes (by decide) hc
  have hgrouping : spec.upper.grouping = spec.grouping := rfl
  simp only [Spec.checkGrouping, hgrouping]
  cases spec.grouping with
  | none => rfl
  | some g =>
      simp only [hdecimal, hradix]
      split
      · rfl
      · rfl

/-- Steps after a check that both forms pass or both fail. -/
theorem upperOutcome_bind {check : Except FormatError Unit}
    {next : Unit → Except FormatError (List Char)} :
    upperOutcome (check >>= next) =
      check.mapError FormatError.upper >>= fun u => upperOutcome (next u) := by
  cases check with
  | error e => rfl
  | ok u => rfl

/-- The types of floats with an upper-case form show integers as well. -/
theorem mem_floatCodes (hc : c ∈ casedFloatCodes) : c ∈ integerAsFloatCodes ∧ c ∈ floatCodes := by
  rcases casedFloatCodes_cases hc with rfl | rfl | rfl <;> decide

/-! ## Values -/

theorem formatInteger_upper (hfill : ∀ c ∈ spec.fill, c.isLower = false)
    (hcode : spec.code = some c) (hc : c ∈ casedCodes) (z : Int) (kind : ValueKind) :
    formatInteger z spec.upper kind = upperOutcome (formatInteger z spec kind) := by
  have hprecision : spec.upper.precision = spec.precision := rfl
  have hfloat := toUpper_mem_iff integerAsFloatCodes (by decide) hc
  simp only [formatInteger, hcode, code_upper hcode, Option.getD_some, checkGrouping_upper hc,
    upperOutcome_bind, hfloat, hprecision]
  -- What is left are the steps after the check of the separator.
  congr 1
  funext _
  rcases casedCodes_cases hc with rfl | hcased
  · -- The one type of a radix; a precision is refused under both of its forms.
    have hx : 'x' ∉ integerAsFloatCodes := by decide
    rw [if_neg hx, if_neg hx]
    cases spec.precision with
    | some p => rfl
    | none => exact congrArg Except.ok (formatRadix_upper hfill z)
  · have hshown := (mem_floatCodes hcased).1
    rw [if_pos hshown, if_pos hshown, ← code_upper hcode, ← hcode,
      formatFloatAs_upper hfill hcode hcased]
    rfl

theorem formatFloat_upper (hfill : ∀ c ∈ spec.fill, c.isLower = false)
    (hcode : spec.code = some c) (hc : c ∈ casedCodes) (x : Binary64) :
    formatFloat x spec.upper = upperOutcome (formatFloat x spec) := by
  have hfloat := toUpper_mem_iff floatCodes (by decide) hc
  simp only [formatFloat, hcode, code_upper hcode, checkGrouping_upper hc, upperOutcome_bind,
    hfloat]
  congr 1
  funext _
  rcases casedCodes_cases hc with rfl | hcased
  · rfl
  · have hmem := (mem_floatCodes hcased).2
    rw [if_pos hmem, if_pos hmem, ← code_upper hcode, ← hcode,
      formatFloatAs_upper hfill hcode hcased]
    rfl

/-- No string takes one of these types. -/
theorem formatText_upper (hcode : spec.code = some c) (hc : c ∈ casedCodes) (s : List Char) :
    formatText s spec.upper = upperOutcome (formatText s spec) := by
  have hcodes : c ≠ 's' ∧ c.toUpper ≠ 's' := by
    rcases casedCodes_cases hc with rfl | hcased
    · decide
    · rcases casedFloatCodes_cases hcased with rfl | rfl | rfl <;> decide
  rcases hcodes with ⟨hs, hs'⟩
  simp only [formatText, hcode, code_upper hcode, Option.getD_some, checkGrouping_upper hc,
    upperOutcome_bind]
  congr 1
  funext _
  rw [if_pos hs, if_pos hs']
  rfl

/-- An upper-case presentation type changes the case of a rendering and nothing else: a value is
rejected under both forms of the type, for the same reason, or rendered under both, and then the
rendering under the upper-case one is the other in upper case. Only a fill that is itself a
lower-case letter is left out. -/
theorem formatWith_upper (hcode : ∃ c ∈ casedCodes, spec.code = some c)
    (hfill : ∀ c ∈ spec.fill, c.isLower = false) (v : Value) :
    formatWith v spec.upper = upperOutcome (formatWith v spec) := by
  rcases hcode with ⟨c, hc, hcode⟩
  cases v with
  | bool b => exact formatInteger_upper hfill hcode hc b.toInt .bool
  | int i => exact formatInteger_upper hfill hcode hc i.toInt .int
  | uint n => exact formatInteger_upper hfill hcode hc n.toNat .int
  | float x => exact formatFloat_upper hfill hcode hc x
  | str s => exact formatText_upper hcode hc s.toList

/-- Grouped hexadecimal digits behind their mark, centred. -/
def centredHex : Spec where
  fill := some '*'
  align := some .center
  alternate := true
  width := some 15
  grouping := some .underscore
  code := some 'x'

theorem formatWith_upper_centredHex :
    ((∃ c ∈ casedCodes, centredHex.code = some c) ∧ ∀ c ∈ centredHex.fill, c.isLower = false) ∧
      formatWith (.int (-0xdeadbeef)) centredHex = .ok "*-0xdead_beef**".toList ∧
      formatWith (.int (-0xdeadbeef)) centredHex.upper = .ok "*-0XDEAD_BEEF**".toList := by
  have hcode : ∃ c ∈ casedCodes, centredHex.code = some c := ⟨'x', by decide, rfl⟩
  have hfill : ∀ c ∈ centredHex.fill, c.isLower = false := by
    rintro c ⟨⟩
    rfl
  have hlower : formatWith (.int (-0xdeadbeef)) centredHex = .ok "*-0xdead_beef**".toList := by
    decide +kernel
  refine ⟨⟨hcode, hfill⟩, hlower, ?_⟩
  rw [formatWith_upper hcode hfill, hlower]
  decide

end Render
end FormatCheck
