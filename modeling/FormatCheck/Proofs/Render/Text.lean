import FormatCheck.Proofs.Render.Padding

/-!
# Specifiers of strings

A string takes few specifiers, and refuses all others for the first of six defects. `TextDefect`
lists them with their places in that order, `TakesText` says what is left without any, and
`formatText_exact` that a string is rendered under just these specifiers, as its first characters
between the pads that bring them to the width.

The order matters because one specifier can have several defects. A separator is judged by the
presentation type before the type itself is, so that a type that strings do not have is refused
alone where it carries the separator, and together with it where it does not.
-/

namespace FormatCheck
namespace Render

/-! ## Defects -/

/-- A specifier under which a string is rendered. -/
structure TakesText (spec : Spec) : Prop where
  code : spec.code = none ∨ spec.code = some 's'
  sign : spec.sign = none
  alternate : spec.alternate = false
  grouping : spec.grouping = none
  align : spec.align ≠ some .afterSign

/-- The presentation type carries the separator. -/
def Carries (code : Char) (g : Grouping) : Prop :=
  code ∈ Spec.decimalCodes ∨ (code ∈ Spec.radixCodes ∧ g = .underscore)

/-- What a string does not take of a specifier: the place at which it is looked for, and the
rejection that it leads to. -/
inductive TextDefect (spec : Spec) : Nat → FormatError → Prop where
  /-- A separator that the presentation type, `s` by default, does not carry. -/
  | grouping {g : Grouping} :
      spec.grouping = some g → ¬Carries (spec.code.getD 's') g →
      TextDefect spec 0 (.groupingNotAllowed g.toChar (spec.code.getD 's'))
  | code {code : Char} :
      spec.code = some code → code ≠ 's' → TextDefect spec 1 (.unknownCode code .str)
  | space : spec.sign = some .space → TextDefect spec 2 .spaceOnString
  | sign :
      spec.sign = some .always ∨ spec.sign = some .negativeOnly → TextDefect spec 3 .signOnString
  | alternate : spec.alternate = true → TextDefect spec 4 .alternateOnString
  | alignment : spec.align = some .afterSign → TextDefect spec 5 .equalsAlignOnString

/-- There is no defect in the places before this one. -/
def SoundBefore (spec : Spec) (place : Nat) : Prop :=
  ∀ earlier < place, ∀ e, ¬TextDefect spec earlier e

/-- A defect with no other before it. -/
def FirstTextDefect (spec : Spec) (e : FormatError) : Prop :=
  ∃ place, TextDefect spec place e ∧ SoundBefore spec place

variable {spec : Spec} {place : Nat} {e : FormatError}

/-- A string takes a specifier without defects. The separator is absent then, because `s` carries
none. -/
theorem takesText_of_forall (h : ∀ place e, ¬TextDefect spec place e) : TakesText spec where
  code := by
    cases hcode : spec.code with
    | none => exact Or.inl rfl
    | some code =>
        by_contra hother
        exact h 1 _ (.code hcode (by simpa using hother))
  sign := by
    cases hsign : spec.sign with
    | none => rfl
    | some sign =>
        cases sign with
        | space => exact absurd (.space hsign) (h 2 _)
        | always => exact absurd (.sign (Or.inl hsign)) (h 3 _)
        | negativeOnly => exact absurd (.sign (Or.inr hsign)) (h 3 _)
  alternate := by
    by_contra halternate
    exact h 4 _ (.alternate (by simpa using halternate))
  grouping := by
    cases hgrouping : spec.grouping with
    | none => rfl
    | some g =>
        -- A type that carries the separator is no type of strings.
        by_cases hcarries : Carries (spec.code.getD 's') g
        · cases hcode : spec.code with
          | none => simp [hcode, Carries, Spec.decimalCodes, Spec.radixCodes] at hcarries
          | some code =>
              by_cases hs : code = 's'
              · simp [hcode, hs, Carries, Spec.decimalCodes, Spec.radixCodes] at hcarries
              · exact absurd (.code hcode hs) (h 1 _)
        · exact absurd (.grouping hgrouping hcarries) (h 0 _)
  align := fun halign => h 5 _ (.alignment halign)

theorem TakesText.not_textDefect (h : TakesText spec) : ¬TextDefect spec place e := by
  intro hdefect
  cases hdefect with
  | grouping hgrouping _ => simp [h.grouping] at hgrouping
  | code hcode hne =>
      rcases h.code with hnone | hs
      · simp [hnone] at hcode
      · exact hne (Option.some.inj (hcode.symm.trans hs))
  | space hsign => simp [h.sign] at hsign
  | sign hsign => simp [h.sign] at hsign
  | alternate halternate => simp [h.alternate] at halternate
  | alignment halign => exact h.align halign

/-- Of the defects of a specifier one comes first. -/
theorem exists_firstTextDefect_or_takesText (spec : Spec) :
    (∃ e, FirstTextDefect spec e) ∨ TakesText spec := by
  classical
  by_cases h : ∃ place e, TextDefect spec place e
  · -- The least place with a defect has no other before it.
    rcases Nat.find_spec h with ⟨e, hdefect⟩
    refine Or.inl ⟨e, Nat.find h, hdefect, ?_⟩
    intro earlier hlt e' hearlier
    exact Nat.find_min h hlt ⟨e', hearlier⟩
  · push Not at h
    exact Or.inr (takesText_of_forall h)

/-! ## What the checks read -/

namespace SoundBefore

theorem checkGrouping_eq (h : SoundBefore spec place) (hplace : 0 < place) :
    spec.checkGrouping (some (spec.code.getD 's')) = .ok () := by
  unfold Spec.checkGrouping
  cases hgrouping : spec.grouping with
  | none => rfl
  | some g =>
      by_cases hcarries : Carries (spec.code.getD 's') g
      · exact if_pos hcarries
      · exact absurd (.grouping hgrouping hcarries) (h 0 hplace _)

theorem code_eq (h : SoundBefore spec place) (hplace : 1 < place) : spec.code.getD 's' = 's' := by
  cases hcode : spec.code with
  | none => rfl
  | some code =>
      by_contra hs
      exact h 1 hplace _ (.code hcode hs)

theorem sign_ne_space (h : SoundBefore spec place) (hplace : 2 < place) :
    spec.sign ≠ some .space :=
  fun hsign => h 2 hplace _ (.space hsign)

theorem sign_eq_none (h : SoundBefore spec place) (hplace : 3 < place) : spec.sign = none := by
  cases hsign : spec.sign with
  | none => rfl
  | some sign =>
      cases sign with
      | space => exact absurd hsign (h.sign_ne_space (Nat.lt_of_succ_lt hplace))
      | always => exact absurd (.sign (Or.inl hsign)) (h 3 hplace _)
      | negativeOnly => exact absurd (.sign (Or.inr hsign)) (h 3 hplace _)

theorem alternate_eq_false (h : SoundBefore spec place) (hplace : 4 < place) :
    spec.alternate = false := by
  by_contra halternate
  exact h 4 hplace _ (.alternate (by simpa using halternate))

end SoundBefore

/-- The fill of a string: zeros under the zero flag, else the character given or a blank. -/
def textFill (spec : Spec) : Char := if spec.zeroPad then '0' else spec.fill.getD ' '

/-- The zero flag changes the fill of a string and not its alignment, which is to the left. -/
theorem resolveFill_left (spec : Spec) :
    spec.resolveFill .left = (textFill spec, spec.align.getD .left) := by
  unfold Spec.resolveFill textFill
  cases spec.zeroPad with
  | true => rfl
  | false => rfl

theorem align_getD_left_eq_iff :
    spec.align.getD .left = .afterSign ↔ spec.align = some .afterSign := by
  cases spec.align with
  | none => simp
  | some align => simp

/-! ## Outcomes -/

/-- The part of a string that is shown: its first characters, as many as the precision. -/
def shownText (s : List Char) (spec : Spec) : List Char :=
  s.take (min (spec.precision.getD s.length) s.length)

theorem shownText_eq (s : List Char) (spec : Spec) :
    (match spec.precision with
      | some p => s.take p
      | none => s) = shownText s spec := by
  unfold shownText
  cases spec.precision with
  | none => simp
  | some p => simp [List.take_eq_take_min]

/-- What comes after the check of the separator. -/
theorem formatText_of_checkGrouping (h : spec.checkGrouping (some (spec.code.getD 's')) = .ok ())
    (s : List Char) :
    formatText s spec =
      if spec.code.getD 's' ≠ 's' then .error (.unknownCode (spec.code.getD 's') .str)
      else if spec.sign = some .space then .error .spaceOnString
      else if spec.sign.isSome then .error .signOnString
      else if spec.alternate then .error .alternateOnString
      else if spec.align = some .afterSign then .error .equalsAlignOnString
      else .ok (padText (shownText s spec) spec.width (textFill spec) (spec.align.getD .left)) := by
  rw [← shownText_eq]
  simp only [formatText, h, resolveFill_left, align_getD_left_eq_iff]
  rfl

/-- The checks come in the order of the places, and the first that fails reports its defect. -/
theorem formatText_of_firstTextDefect (h : FirstTextDefect spec e) (s : List Char) :
    formatText s spec = .error e := by
  rcases h with ⟨place, hdefect, hsound⟩
  -- Every check is reached because those of the places before it pass.
  cases hdefect with
  | @grouping g hgrouping hcarries =>
      have hcheck : spec.checkGrouping (some (spec.code.getD 's')) =
          .error (.groupingNotAllowed g.toChar (spec.code.getD 's')) := by
        simp only [Spec.checkGrouping, hgrouping]
        exact if_neg hcarries
      rw [formatText, hcheck]
      rfl
  | code hcode hs =>
      rw [formatText_of_checkGrouping (hsound.checkGrouping_eq (by decide))]
      simp [hcode, hs]
  | space hsign =>
      rw [formatText_of_checkGrouping (hsound.checkGrouping_eq (by decide))]
      simp [hsound.code_eq, hsign]
  | sign hsign =>
      rw [formatText_of_checkGrouping (hsound.checkGrouping_eq (by decide))]
      rcases hsign with hsign | hsign
      · simp [hsound.code_eq, hsign]
      · simp [hsound.code_eq, hsign]
  | alternate halternate =>
      rw [formatText_of_checkGrouping (hsound.checkGrouping_eq (by decide))]
      simp [hsound.code_eq, hsound.sign_eq_none, halternate]
  | alignment halign =>
      rw [formatText_of_checkGrouping (hsound.checkGrouping_eq (by decide))]
      simp [hsound.code_eq, hsound.sign_eq_none, hsound.alternate_eq_false, halign]

theorem formatText_of_takesText (h : TakesText spec) (s : List Char) :
    formatText s spec =
      .ok (padText (shownText s spec) spec.width (textFill spec) (spec.align.getD .left)) := by
  have hsound : SoundBefore spec 6 := fun _ _ _ => h.not_textDefect
  rw [formatText_of_checkGrouping (hsound.checkGrouping_eq (by decide))]
  simp [hsound.code_eq, hsound.sign_eq_none, hsound.alternate_eq_false, h.align]

/-- A string is rendered under just the specifiers that it takes, and refused under the others for
their first defect. What is rendered is the first characters of the string, as many as the
precision, between pads of the fill that bring them to the width: behind them by default, and in the
middle with the odd one on the right. -/
theorem formatText_exact (s : List Char) (spec : Spec) :
    ((∃ shown, formatText s spec = .ok shown) ↔ TakesText spec) ∧
      (∀ shown, formatText s spec = .ok shown ↔
        TakesText spec ∧
          Padded (textFill spec) (spec.align.getD .left) (spec.width.getD 0) (shownText s spec)
            shown ∧
          shown.length = max (spec.width.getD 0) (shownText s spec).length) ∧
      ∀ e, formatText s spec = .error e ↔ FirstTextDefect spec e := by
  rcases exists_firstTextDefect_or_takesText spec with ⟨first, hfirst⟩ | htakes
  · -- The specifier has a first defect, which is no other, and strings do not take it.
    have herror := formatText_of_firstTextDefect hfirst s
    have hnot : ¬TakesText spec := by
      rcases hfirst with ⟨place, hdefect, _⟩
      exact fun htakes => htakes.not_textDefect hdefect
    refine ⟨?_, ?_, ?_⟩
    · simp [herror, hnot]
    · simp [herror, hnot]
    · intro e
      rw [herror, Except.error.injEq]
      constructor
      · rintro rfl
        exact hfirst
      · intro he
        exact Except.error.inj (herror.symm.trans (formatText_of_firstTextDefect he s))
  · have hok := formatText_of_takesText htakes s
    have hpadded := padded_padText (shownText s spec) spec.width (textFill spec)
      (spec.align.getD .left)
    have halign : spec.align.getD .left ≠ .afterSign := mt align_getD_left_eq_iff.mp htakes.align
    refine ⟨?_, ?_, ?_⟩
    · exact ⟨fun _ => htakes, fun _ => ⟨_, hok⟩⟩
    · intro shown
      rw [hok, Except.ok.injEq]
      constructor
      · rintro rfl
        exact ⟨htakes, hpadded, hpadded.length_eq⟩
      · -- There is only one text with these pads.
        rintro ⟨_, hshown, _⟩
        exact (hshown.eq_padText halign).symm
    · intro e
      rw [hok]
      constructor
      · intro h
        cases h
      · rintro ⟨place, hdefect, _⟩
        exact absurd hdefect htakes.not_textDefect

/-- A type that strings do not have is reported alone where it carries the separator, and with it
where it does not; the sign comes later. -/
example : formatText ['a'] { sign := some .space, grouping := some .comma, code := some 'd' } =
      .error (.unknownCode 'd' .str) ∧
    formatText ['a'] { sign := some .space, grouping := some .comma, code := some 'x' } =
      .error (.groupingNotAllowed ',' 'x') := by
  decide

end Render
end FormatCheck
