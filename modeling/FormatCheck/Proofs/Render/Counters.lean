import FormatCheck.Proofs.Render.GroupingLoop
import FormatCheck.Proofs.Render.NumberLayout

/-!
# Layout in signed 64-bit numbers

The layout of a number is computed with integers. `layoutCounted?` computes it with signed 64-bit
numbers, and is nothing as soon as one of its computations leaves their range, in the loop over
groups or around it. `layoutCounted?_eq_some_iff` says when that happens. All depends on the width,
which the parser takes up to `2 ^ 64`:

1. below `2 ^ 63` nothing leaves the range, and the rendering fills the width;
2. from `2 ^ 63` on the width is negative, and the subtraction of the lengths leaves the range;
3. as many characters further on it does not, but the rendering is shorter than the width.
-/

namespace FormatCheck
namespace Render

open Counter

/-! ## Counting -/

/-- The groups of `groupReversed`, written by a loop with counters for the digits left and the
characters missing. -/
def groupCounted? (separator : Char) (size : Nat) (digits : List Char) (remaining missing : Int) :
    Option (List Char) :=
  let length := min ((max size 1 : Nat) : Int) (max (max remaining missing) 1)
  let left := remaining - max (min remaining length) 0
  let short := missing - length
  -- The characters missing may be fewer than none while there are digits left.
  if Fits (length - remaining) ∧ Fits left ∧ Fits short then
    (slice? digits left remaining).bind fun group =>
      let chunk := group.reverse ++ List.replicate (length - remaining).toNat '0'
      if left ≤ 0 ∧ short ≤ 0 then some chunk
      else if Fits (short - 1) then
        (groupCounted? separator size digits left (short - 1)).map fun rest =>
          chunk ++ separator :: rest
      else none
  else none
termination_by remaining.toNat + missing.toNat
decreasing_by omega

/-- The width that digits are extended to, where the specifier asks for it. -/
def minDigits (spec : Spec) (otherLength : Int) : Int :=
  if (spec.resolveFill .right).1 = '0' ∧ (spec.resolveFill .right).2 = .afterSign then
    signedWidth spec.width - otherLength
  else 0

/-- The digits that the specifier asks for, with counters in the loop over groups. -/
def groupedCounted? (parts : NumberParts) (spec : Spec) (groupSize : Nat) (otherLength : Int) :
    Option (List Char) :=
  match spec.grouping with
  | none => some parts.digits
  | some grouping =>
    if parts.digits = [] then some []
    else do
      let remaining ← counter? parts.digits.length
      let missing ← counter? (minDigits spec otherLength)
      let reversed ← groupCounted? grouping.toChar groupSize parts.digits remaining missing
      some reversed.reverse

/-- The layout of a number, with counters for all that is computed. -/
def layoutCounted? (parts : NumberParts) (spec : Spec) (groupSize : Nat) : Option (List Char) := do
  let width ← counter? (signedWidth spec.width)
  let otherLength ← counter? (parts.otherLength spec)
  let digits ← groupedCounted? parts spec groupSize otherLength
  let length ← counter? digits.length
  let room ← counter? (width - otherLength)
  let padding ← counter? (room - length)
  some (parts.padded spec (.spread padding.toNat (spec.resolveFill .right).2) digits)

variable {separator : Char} {size : Nat} {digits : List Char} {parts : NumberParts} {spec : Spec}

/-! ## The loop over groups -/

/-- A round of the recursion is a round of the loop that `Ends` runs. -/
theorem groupCounted?_eq_writeGroup? (separator : Char) (size : Nat) (digits : List Char)
    (remaining missing : Int) :
    groupCounted? separator size digits remaining missing =
      (GroupingState.writeGroup? (max size 1 : Nat) digits ⟨remaining, missing, []⟩).bind fun s =>
        if s.remaining ≤ 0 ∧ s.missing ≤ 0 then some s.written
        else if Fits (s.missing - 1) then
          (groupCounted? separator size digits s.remaining (s.missing - 1)).map fun rest =>
            s.written ++ separator :: rest
        else none := by
  have hzeros (z : Int) : (max z 0).toNat = z.toNat := by omega
  rw [groupCounted?, GroupingState.writeGroup?]
  simp only [hzeros, List.nil_append]
  split
  · rw [Option.bind_map]
    rfl
  · rfl

/-- The loop writes what is left of the digits as the recursion does, if the characters missing can
be counted down by all that is written. -/
theorem groupCounted?_eq (separator : Char) (size : Nat) (hdigits : digits.length < 2 ^ 63)
    {rest : List Char} (hrest : rest.reverse <+: digits) {minWidth : Int} (hmin : Fits minWidth) :
    groupCounted? separator size digits rest.length minWidth =
      if -2 ^ 63 ≤ minWidth - (groupReversed separator size rest minWidth).length then
        some (groupReversed separator size rest minWidth)
      else none := by
  fun_induction groupReversed separator size rest minWidth with
  | case1 rest minWidth count chunk missing hlast =>
      have hround := GroupingState.writeGroup?_eq (le_max_right size 1) hdigits hrest hmin []
        (show count = min (max (max size 1) 1) (max rest.length (max minWidth 1).toNat) by omega)
      have hnone : ((rest.drop count).length : Int) ≤ 0 := by
        rw [List.length_drop]
        omega
      rw [groupCounted?_eq_writeGroup?, hround, length_group]
      split
      · exact if_pos ⟨hnone, hlast.2⟩
      · rfl
  | case2 rest minWidth count chunk missing hmore ih =>
      have hround := GroupingState.writeGroup?_eq (le_max_right size 1) hdigits hrest hmin []
        (show count = min (max (max size 1) 1) (max rest.length (max minWidth 1).toNat) by omega)
      have hleft : ¬(((rest.drop count).length : Int) ≤ 0 ∧ missing ≤ 0) := by
        rw [List.length_drop]
        omega
      rw [groupCounted?_eq_writeGroup?, hround, List.length_append, List.length_cons, length_group]
      -- A later round needs more room than this one, so the last one decides.
      by_cases hroom : -2 ^ 63 ≤ missing - 1
      · have hhigh := hmin.2
        have hnext : Fits (missing - 1) := ⟨hroom, by omega⟩
        rw [if_pos (by omega), Option.bind_some, if_neg hleft, if_pos hnext,
          ih (GroupingState.reverse_drop_isPrefix hrest count) hnext]
        split
        · next hlast =>
          rw [if_pos (by omega)]
          rfl
        · next hlast =>
          rw [if_neg (by omega)]
          rfl
      · have hover : ¬Fits (missing - 1) := fun hfits => hroom hfits.1
        refine Eq.trans ?_ (if_neg (by omega)).symm
        split
        · rw [Option.bind_some, if_neg hleft, if_neg hover]
        · rfl

/-! ## The layout around it -/

/-- The digits of the layout. -/
abbrev NumberParts.laidDigits (parts : NumberParts) (spec : Spec) (groupSize : Nat) : List Char :=
  groupedDigits parts spec groupSize (parts.otherLength spec)

theorem groupedCounted?_eq_some_iff (hdigits : parts.digits.length < 2 ^ 63) {groupSize : Nat}
    (hroom : Fits (signedWidth spec.width - parts.otherLength spec)) {shown : List Char} :
    groupedCounted? parts spec groupSize (parts.otherLength spec) = some shown ∧
        Fits shown.length ∧ Fits (signedWidth spec.width - parts.otherLength spec - shown.length) ↔
      shown = parts.laidDigits spec groupSize ∧ Fits shown.length ∧
        Fits (signedWidth spec.width - parts.otherLength spec - shown.length) := by
  refine and_congr_left fun ⟨hlength, hpadding⟩ => ?_
  unfold groupedCounted? NumberParts.laidDigits groupedDigits
  cases spec.grouping with
  | none => exact Option.some_inj.trans eq_comm
  | some grouping =>
      by_cases hnil : parts.digits = []
      · simp only [hnil, if_true]
        exact Option.some_inj.trans eq_comm
      · have hmissing : Fits (minDigits spec (parts.otherLength spec)) ∧
            -2 ^ 63 ≤ minDigits spec (parts.otherLength spec) - shown.length := by
          unfold minDigits Fits at *
          split <;> omega
        have hcount : Fits (parts.digits.length : Int) := ⟨by omega, by omega⟩
        have hall : parts.digits.reverse.reverse <+: parts.digits := by simp
        have hloop := groupCounted?_eq grouping.toChar groupSize hdigits hall hmissing.1
        rw [List.length_reverse] at hloop
        simp only [hnil, if_false, counter?_eq_some hcount, counter?_eq_some hmissing.1, hloop,
          Option.bind_eq_bind, Option.bind_some]
        change _ ↔ shown = insertGrouping grouping.toChar groupSize parts.digits
          (minDigits spec (parts.otherLength spec))
        unfold insertGrouping
        split
        · exact Option.some_inj.trans eq_comm
        · next hshort =>
          refine iff_of_false nofun ?_
          rintro rfl
          rw [List.length_reverse] at hmissing
          exact hshort hmissing.2

/-- The layout is computed just if every number on the way to it can be counted, and is then the
layout. -/
theorem layoutCounted?_eq_some_iff (hdigits : parts.digits.length < 2 ^ 63) {groupSize : Nat}
    {text : List Char} :
    layoutCounted? parts spec groupSize = some text ↔
      (Fits (signedWidth spec.width) ∧ Fits (parts.otherLength spec) ∧
        Fits (parts.laidDigits spec groupSize).length ∧
        Fits (signedWidth spec.width - parts.otherLength spec) ∧
        Fits (signedWidth spec.width - parts.otherLength spec
          - (parts.laidDigits spec groupSize).length)) ∧
      text = layoutNumber parts spec groupSize := by
  simp only [layoutCounted?, Option.bind_eq_bind, Option.bind_eq_some_iff, counter?_eq_some_iff]
  constructor
  · rintro ⟨_, ⟨hwidth, rfl⟩, _, ⟨hother, rfl⟩, shown, hshown, _, ⟨hlength, rfl⟩, _, ⟨hroom, rfl⟩,
      _, ⟨hpadding, rfl⟩, htext⟩
    rcases (groupedCounted?_eq_some_iff hdigits hroom).mp ⟨hshown, hlength, hpadding⟩ with
      ⟨rfl, _, _⟩
    refine ⟨⟨hwidth, hother, hlength, hroom, hpadding⟩, ?_⟩
    rw [layoutNumber_eq_padded]
    exact (Option.some.inj htext).symm
  · rintro ⟨⟨hwidth, hother, hlength, hroom, hpadding⟩, rfl⟩
    rcases (groupedCounted?_eq_some_iff hdigits hroom).mpr ⟨rfl, hlength, hpadding⟩ with
      ⟨hshown, _, _⟩
    refine ⟨_, ⟨hwidth, rfl⟩, _, ⟨hother, rfl⟩, _, hshown, _, ⟨hlength, rfl⟩, _, ⟨hroom, rfl⟩,
      _, ⟨hpadding, rfl⟩, ?_⟩
    rw [layoutNumber_eq_padded]

/-! ## Widths -/

/-- A rendering is as long as its width and its text without padding ask for, in signed numbers. -/
theorem length_layoutNumber (parts : NumberParts) (spec : Spec) (groupSize : Nat) :
    ((layoutNumber parts spec groupSize).length : Int) =
      max (signedWidth spec.width)
        (parts.otherLength spec + (parts.laidDigits spec groupSize).length) := by
  rw [layoutNumber_eq_padded, NumberParts.length_padded, Pads.sum_spread]
  unfold NumberParts.laidDigits
  omega

theorem groupSizeOf_eq (spec : Spec) : groupSizeOf spec = 3 ∨ groupSizeOf spec = 4 := by
  unfold groupSizeOf radixOf Radix.ofCode
  split_ifs
  all_goals decide

theorem length_digits_le_naturalLength (parts : NumberParts) (spec : Spec) :
    parts.digits.length ≤ parts.naturalLength spec := by
  have hshown : parts.digits.length ≤ (parts.shownDigits spec).length := by
    unfold NumberParts.shownDigits
    split
    · exact Nat.le_refl _
    · rw [length_grouped]
      exact Nat.le_add_right _ _
  exact Nat.le_trans hshown (Nat.le_add_left _ _)

/-- What is shown of the digits takes one character more than the width at most. -/
theorem length_laidDigits (parts : NumberParts) (hwidth : ∀ w ∈ spec.width, w < 2 ^ 63) :
    parts.laidDigits spec (groupSizeOf spec) = parts.shownDigits spec ∨
      parts.otherLength spec + (parts.laidDigits spec (groupSizeOf spec)).length =
        if SeparatorAt (groupSizeOf spec) (spec.width.getD 0 - parts.otherLength spec) then
          spec.width.getD 0 + 1
        else spec.width.getD 0 := by
  by_cases hextends : parts.ExtendsDigits spec
  · rcases exists_groupedDigits_of_extends hwidth hextends with ⟨_, _, _, _, hlength⟩
    exact Or.inr hlength
  · exact Or.inl (groupedDigits_of_not_extends hwidth hextends)

theorem getD_width_lt (hwidth : ∀ w ∈ spec.width, w < 2 ^ 63) : spec.width.getD 0 < 2 ^ 63 := by
  cases h : spec.width with
  | none => decide
  | some w => exact hwidth w h

/-- A width below `2 ^ 63` keeps every computation in range. -/
theorem fits_of_width_lt (hnatural : parts.naturalLength spec < 2 ^ 63)
    (hwidth : ∀ w ∈ spec.width, w < 2 ^ 63) :
    Fits (signedWidth spec.width) ∧ Fits (parts.laidDigits spec (groupSizeOf spec)).length ∧
      Fits (signedWidth spec.width - parts.otherLength spec
        - (parts.laidDigits spec (groupSizeOf spec)).length) := by
  have hsum : parts.naturalLength spec =
      parts.otherLength spec + (parts.shownDigits spec).length := rfl
  have hlt := getD_width_lt hwidth
  have hsigned : -1 ≤ signedWidth spec.width ∧ signedWidth spec.width ≤ spec.width.getD 0 ∧
      spec.width.getD 0 ≤ signedWidth spec.width + 1 := by
    rcases signedWidth_cases hwidth with heq | ⟨heq, hzero⟩ <;> omega
  unfold Fits
  rcases length_laidDigits parts hwidth with hshown | hlength
  · rw [hshown]
    omega
  · -- No separator would stand first in `2 ^ 63 - 1` characters, so these are enough.
    have hlast : ¬SeparatorAt (groupSizeOf spec) (2 ^ 63 - 1) := by
      rcases groupSizeOf_eq spec with hsize | hsize <;> rw [hsize] <;> decide
    have hbound : (parts.laidDigits spec (groupSizeOf spec)).length < 2 ^ 63 := by
      split at hlength
      · next hseparator =>
        have hne : spec.width.getD 0 - parts.otherLength spec ≠ 2 ^ 63 - 1 :=
          fun heq => hlast (heq ▸ hseparator)
        omega
      · omega
    split at hlength <;> omega

/-- Nothing is padded to a negative width, and no digits are extended to it. -/
theorem laidDigits_of_signedWidth_nonpos (parts : NumberParts) (h : signedWidth spec.width ≤ 0) :
    parts.laidDigits spec (groupSizeOf spec) = parts.shownDigits spec := by
  refine groupedDigits_of_reached fun _ _ _ => ?_
  omega

/-- A width that is written and not below `2 ^ 63` is negative. -/
theorem exists_negative_width (hparsed : ∀ w ∈ spec.width, w < 2 ^ 64)
    (hwide : ¬∀ w ∈ spec.width, w < 2 ^ 63) :
    ∃ w, spec.width = some w ∧ 2 ^ 63 ≤ w ∧ signedWidth spec.width = (w : Int) - 2 ^ 64 ∧
      signedWidth spec.width < 0 := by
  obtain ⟨w, hw, hlow⟩ : ∃ w, spec.width = some w ∧ 2 ^ 63 ≤ w := by
    simpa using hwide
  have hhigh : w < 2 ^ 64 := hparsed w hw
  have hsigned : signedWidth spec.width = (w : Int) - 2 ^ 64 := by
    rw [hw]
    exact if_neg (Nat.not_lt.mpr hlow)
  exact ⟨w, hw, hlow, hsigned, by omega⟩

/-- Where all is computed in range: below `2 ^ 63`, and so far above it that the lengths can be
subtracted from the negative width. -/
theorem layoutCounted?_eq_layoutNumber_iff (hparsed : ∀ w ∈ spec.width, w < 2 ^ 64)
    (hnatural : parts.naturalLength spec < 2 ^ 63) :
    layoutCounted? parts spec (groupSizeOf spec) =
        some (layoutNumber parts spec (groupSizeOf spec)) ↔
      ∀ w ∈ spec.width, w < 2 ^ 63 ∨ 2 ^ 63 + parts.naturalLength spec ≤ w := by
  have hdigits := Nat.lt_of_le_of_lt (length_digits_le_naturalLength parts spec) hnatural
  rw [layoutCounted?_eq_some_iff hdigits, and_iff_left rfl]
  by_cases hwidth : ∀ w ∈ spec.width, w < 2 ^ 63
  · have hfits := fits_of_width_lt hnatural hwidth
    refine iff_of_true ?_ fun w hw => Or.inl (hwidth w hw)
    unfold Fits NumberParts.naturalLength at *
    omega
  · rcases exists_negative_width hparsed hwidth with ⟨w, hw, hlow, hsigned, hnegative⟩
    have hall : (∀ w' ∈ spec.width, w' < 2 ^ 63 ∨ 2 ^ 63 + parts.naturalLength spec ≤ w') ↔
        2 ^ 63 + parts.naturalLength spec ≤ w := by
      simp [hw, Nat.not_lt.mpr hlow]
    rw [laidDigits_of_signedWidth_nonpos parts (Int.le_of_lt hnegative), hall]
    unfold Fits NumberParts.naturalLength at *
    omega

/-- A rendering fills its width just if that is below `2 ^ 63`. -/
theorem width_le_length_layoutNumber_iff (hparsed : ∀ w ∈ spec.width, w < 2 ^ 64)
    (hnatural : parts.naturalLength spec < 2 ^ 63) :
    spec.width.getD 0 ≤ (layoutNumber parts spec (groupSizeOf spec)).length ↔
      ∀ w ∈ spec.width, w < 2 ^ 63 := by
  have hlength := length_layoutNumber parts spec (groupSizeOf spec)
  by_cases hwidth : ∀ w ∈ spec.width, w < 2 ^ 63
  · refine iff_of_true ?_ hwidth
    rcases signedWidth_cases hwidth with heq | ⟨_, hzero⟩ <;> omega
  · refine iff_of_false ?_ hwidth
    rcases exists_negative_width hparsed hwidth with ⟨w, hw, hlow, _, hnegative⟩
    -- The rendering is the text without padding, which is shorter than any such width.
    rw [laidDigits_of_signedWidth_nonpos parts (Int.le_of_lt hnegative)] at hlength
    rw [hw, Option.getD_some]
    unfold NumberParts.naturalLength at hnatural
    omega

/-! ## Rendered values -/

theorem width_lt_of_parse {typeName text : String} (h : Spec.parse typeName text = .ok spec) :
    ∀ w ∈ spec.width, w < 2 ^ 64 := by
  rcases Spec.Cut.parse_eq_ok_iff.mp h with ⟨cut, _, _, hsound, rfl⟩
  intro w hw
  have hvalue : Spec.runValue? cut.width = some w := hw
  unfold Spec.runValue? at hvalue
  split at hvalue
  · cases hvalue
  · cases hvalue
    exact hsound.width_lt

theorem width_le_length_padText (s : List Char) (width : Option Nat) (fill : Char) (align : Align) :
    width.getD 0 ≤ (padText s width fill align).length := by
  rcases padded_padText s width fill align with ⟨left, right, hshown, hsum, _⟩
  rw [hshown, List.length_append, List.length_append, List.length_replicate, List.length_replicate]
  omega

/-- A string that is rendered is padded to the width. -/
theorem width_le_length_of_formatText {s text : List Char} (h : formatText s spec = .ok text) :
    spec.width.getD 0 ≤ text.length := by
  rcases exists_of_bind_eq_ok h with ⟨_, _, hrest⟩
  dsimp only at hrest
  split_ifs at hrest
  cases hrest
  exact width_le_length_padText _ _ _ _

/-- What the width of a specifier does. A string fills every width. A number fills the width just if
that is below `2 ^ 63`, and its layout is computed in range just if the width is below that or above
it by at least what the number takes without padding. This is fewer than `2 ^ 63` characters in any
text that a memory holds, although a precision could ask for more. -/
theorem formatWith_fillsWidth_iff {typeName text : String}
    (hspec : Spec.parse typeName text = .ok spec) {v : Value} {shown : List Char}
    (h : formatWith v spec = .ok shown) :
    (v.kind = .str → spec.width.getD 0 ≤ shown.length) ∧
      (v.kind ≠ .str → ∃ parts, Shows spec v parts ∧
        shown = layoutNumber parts spec (groupSizeOf spec) ∧
        (parts.naturalLength spec < 2 ^ 63 →
          (spec.width.getD 0 ≤ shown.length ↔ ∀ w ∈ spec.width, w < 2 ^ 63) ∧
          (layoutCounted? parts spec (groupSizeOf spec) = some shown ↔
            ∀ w ∈ spec.width, w < 2 ^ 63 ∨ 2 ^ 63 + parts.naturalLength spec ≤ w))) := by
  have hparsed := width_lt_of_parse hspec
  constructor
  · intro hv
    cases v with
    | str s => exact width_le_length_of_formatText h
    | _ => cases hv
  · intro hv
    rcases exists_parts_of_formatWith hv h with ⟨parts, _, hshows, rfl⟩
    refine ⟨parts, hshows, rfl, ?_⟩
    intro hnatural
    exact ⟨width_le_length_layoutNumber_iff hparsed hnatural,
      layoutCounted?_eq_layoutNumber_iff hparsed hnatural⟩

/-- The specifier of a width alone. -/
def widthSpec (w : Nat) : Spec where
  width := some w

/-- Nothing is padded to the largest width, and the sizes are computed in range. -/
theorem formatWith_fillsWidth_iff_widest :
    let widest := widthSpec (2 ^ 64 - 1)
    Spec.parse "int" "18446744073709551615" = .ok widest ∧
      formatWith (.int 5) widest = .ok ['5'] ∧
      ∃ parts, Shows widest (.int 5) parts ∧ parts.naturalLength widest < 2 ^ 63 ∧
        (widest.width.getD 0 ≤ ['5'].length ↔ ∀ w ∈ widest.width, w < 2 ^ 63) ∧
        layoutCounted? parts widest (groupSizeOf widest) = some ['5'] := by
  intro widest
  have hspec : Spec.parse "int" "18446744073709551615" = .ok widest := by decide +kernel
  have hshown : formatWith (.int 5) widest = .ok ['5'] := by decide +kernel
  refine ⟨hspec, hshown, ?_⟩
  rcases (formatWith_fillsWidth_iff hspec hshown).2 (by decide) with ⟨parts, hshows, _, hsizes⟩
  have hnatural : parts.naturalLength widest = 1 := by
    cases hshows with
    | inBase hinteger _ hdigits _ =>
        cases hinteger
        subst hdigits
        decide +kernel
    | codePoint _ hcode _ => cases hcode
    | float _ hfloat => exact absurd hfloat (by decide)
  rcases hsizes (by omega) with ⟨hwidth, hcounted⟩
  refine ⟨parts, hshows, by omega, hwidth, hcounted.mpr ?_⟩
  rintro w ⟨⟩
  right
  rw [hnatural]
  decide

/-- The width `2 ^ 63` leaves the range, and the largest one is not filled. -/
theorem not_forall_width_filled :
    (¬∀ (typeName text : String) (spec : Spec) (v : Value) (shown : List Char),
        Spec.parse typeName text = .ok spec → formatWith v spec = .ok shown →
          spec.width.getD 0 ≤ shown.length) ∧
      ¬∀ (typeName text : String) (spec : Spec) (v : Value) (parts : NumberParts),
        Spec.parse typeName text = .ok spec → Shows spec v parts →
          (layoutCounted? parts spec (groupSizeOf spec)).isSome = true := by
  constructor
  · intro hall
    have hlength := hall "int" "18446744073709551615" (widthSpec (2 ^ 64 - 1)) (.int 5) ['5']
      (by decide +kernel) (by decide +kernel)
    exact absurd hlength (by decide)
  · intro hall
    have hcounted := hall "int" "9223372036854775808" (widthSpec (2 ^ 63)) (.int 5)
      _ (by decide +kernel) (.inBase rfl (by decide) rfl (by decide +kernel))
    exact absurd hcounted (by decide +kernel)

end Render
end FormatCheck
