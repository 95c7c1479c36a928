import FormatCheck.Proofs.Spec.Cut

/-!
# Defects of specifiers

Whether a text is a specifier is decided by its longest cut: it is one if the cut is `Sound`, and
otherwise one of six defects comes first. The parser yields the specifier of a sound cut and the
rejection of the first defect, so it fails exactly on the cuts that have one.
-/

namespace FormatCheck
namespace Spec
namespace Cut

variable {cut : Cut} {typeName text : String}

/-- The specifier that a cut stands for. -/
def spec (cut : Cut) : Spec where
  fill := cut.fill
  align := cut.align
  sign := cut.sign
  alternate := cut.alternate
  zeroPad := cut.zeroPad
  width := runValue? cut.width
  grouping := cut.separators.head?
  precision := cut.precision.bind runValue?
  code := cut.rest.head?

/-- A cut without a defect: its numbers can be read, a point has digits, and there is at most one
separator and at most one character left over, the presentation type. -/
structure Sound (cut : Cut) : Prop where
  width_lt : Numeral.readDecimal cut.width < numberBound
  separators_le : cut.separators.length ≤ 1
  precision_ne_nil : ∀ run ∈ cut.precision, run ≠ []
  precision_lt : ∀ run ∈ cut.precision, Numeral.readDecimal run < numberBound
  rest_le : cut.rest.length ≤ 1

theorem Sound.separators_eq (h : cut.Sound) :
    (cut.separators.head?.map Grouping.toChar).toList = cut.separators.map Grouping.toChar := by
  match hseparators : cut.separators with
  | [] => rfl
  | [_] => rfl
  | _ :: _ :: _ => simpa [hseparators] using h.separators_le

theorem Sound.rest_eq (h : cut.Sound) : cut.rest.head?.toList = cut.rest := by
  match hrest : cut.rest with
  | [] => rfl
  | [_] => rfl
  | _ :: _ :: _ => simpa [hrest] using h.rest_le

/-- The defect of a cut that is met first from left to right, as the rejection it leads to. -/
inductive FirstDefect (cut : Cut) (typeName text : String) : FormatError → Prop where
  | width (h : numberBound ≤ Numeral.readDecimal cut.width) :
      FirstDefect cut typeName text .widthOverflow
  | repeatedSeparator (hwidth : Numeral.readDecimal cut.width < numberBound) {g : Grouping}
      {others : List Grouping} (h : cut.separators = g :: g :: others) :
      FirstDefect cut typeName text (.groupingNotAllowed g.toChar g.toChar)
  | mixedSeparators (hwidth : Numeral.readDecimal cut.width < numberBound) {g g' : Grouping}
      {others : List Grouping} (h : cut.separators = g :: g' :: others) (hne : g' ≠ g) :
      FirstDefect cut typeName text .mixedGrouping
  | noPrecision (hwidth : Numeral.readDecimal cut.width < numberBound)
      (hseparators : cut.separators.length ≤ 1) (h : cut.precision = some []) :
      FirstDefect cut typeName text .missingPrecision
  | precision (hwidth : Numeral.readDecimal cut.width < numberBound)
      (hseparators : cut.separators.length ≤ 1) {run : List Char} (h : cut.precision = some run)
      (hrun : numberBound ≤ Numeral.readDecimal run) : FirstDefect cut typeName text .widthOverflow
  | leftOver (hwidth : Numeral.readDecimal cut.width < numberBound)
      (hseparators : cut.separators.length ≤ 1)
      (hprecision : ∀ run ∈ cut.precision, run ≠ [] ∧ Numeral.readDecimal run < numberBound)
      (h : 2 ≤ cut.rest.length) :
      FirstDefect cut typeName text (.invalidSpecifier text typeName)

/-- A cut has a defect or none. -/
theorem exists_firstDefect_or_sound (cut : Cut) (typeName text : String) :
    (∃ e, FirstDefect cut typeName text e) ∨ cut.Sound := by
  -- The parts are looked at from left to right; the first that fails its test is the defect.
  by_cases hlarge : numberBound ≤ Numeral.readDecimal cut.width
  · exact Or.inl ⟨_, .width hlarge⟩
  have hwidth : Numeral.readDecimal cut.width < numberBound := Nat.lt_of_not_le hlarge
  by_cases hmany : 2 ≤ cut.separators.length
  · match h : cut.separators with
    | [] => simp [h] at hmany
    | [_] => simp [h] at hmany
    | g :: g' :: others =>
        by_cases hg : g' = g
        · subst hg
          exact Or.inl ⟨_, .repeatedSeparator hwidth h⟩
        · exact Or.inl ⟨_, .mixedSeparators hwidth h hg⟩
  have hseparators : cut.separators.length ≤ 1 := Nat.le_of_lt_succ (Nat.lt_of_not_le hmany)
  by_cases hnil : cut.precision = some []
  · exact Or.inl ⟨_, .noPrecision hwidth hseparators hnil⟩
  by_cases hlarge : ∃ run ∈ cut.precision, numberBound ≤ Numeral.readDecimal run
  · rcases hlarge with ⟨run, hrun, hlarge⟩
    exact Or.inl ⟨_, .precision hwidth hseparators hrun hlarge⟩
  have hprecision : ∀ run ∈ cut.precision, run ≠ [] ∧ Numeral.readDecimal run < numberBound := by
    intro run hrun
    constructor
    · rintro rfl
      exact hnil hrun
    · exact Nat.lt_of_not_le fun hle => hlarge ⟨run, hrun, hle⟩
  by_cases hrest : 2 ≤ cut.rest.length
  · exact Or.inl ⟨_, .leftOver hwidth hseparators hprecision hrest⟩
  · exact Or.inr ⟨hwidth, hseparators, fun run hrun => (hprecision run hrun).1,
      fun run hrun => (hprecision run hrun).2, Nat.le_of_lt_succ (Nat.lt_of_not_le hrest)⟩

/-! ## The parser on a longest cut -/

/-- No defect is met before the numbers. -/
theorem parse_eq (hcut : cut.text = text.toList) (hlongest : cut.Longest) :
    parse typeName text = (do
      let (width, s) ← takeNumber cut.afterZeroPad
      let (grouping, s) ← takeGrouping s
      let (precision, s) ← takePrecision s
      match s with
      | [] => .ok { cut.spec with width, grouping, precision, code := none }
      | [c] => .ok { cut.spec with width, grouping, precision, code := some c }
      | _ => .error (.invalidSpecifier text typeName)) := by
  -- Each reader takes its part of the cut, because that part is as long as it can be.
  have halign : takeAlign text.toList = ((cut.fill, cut.align), cut.afterAlign) :=
    takeAlign_eq_iff.mpr ⟨hcut.symm, hlongest.align_of_fill, hcut ▸ hlongest.no_fill,
      hcut ▸ hlongest.no_align⟩
  have hsign : takeOption Sign.ofChar? cut.afterAlign = (cut.sign, cut.afterSign) :=
    (takeOption_eq_iff Sign.ofChar?_eq_some_iff).mpr ⟨rfl, hlongest.no_sign⟩
  have halternate : takeFlag '#' cut.afterSign = (cut.alternate, cut.afterAlternate) :=
    takeFlag_eq_iff.mpr ⟨rfl, hlongest.no_alternate⟩
  have hzero : (if cut.fill.isNone then takeFlag '0' cut.afterAlternate
      else (false, cut.afterAlternate)) = (cut.zeroPad, cut.afterZeroPad) := by
    cases hfill : cut.fill with
    | none =>
        exact takeFlag_eq_iff.mpr ⟨rfl, hlongest.no_zeroPad hfill⟩
    | some f =>
        have hfalse : cut.zeroPad = false := hlongest.zeroPad_of_fill (by simp [hfill])
        simp [afterAlternate, hfalse, flagText]
  simp only [parse, halign, hsign, halternate, hzero]
  rfl

theorem Longest.takeNumber_eq (h : cut.Longest) :
    takeNumber cut.afterZeroPad =
      if Numeral.readDecimal cut.width < numberBound then .ok (runValue? cut.width, cut.afterWidth)
      else .error .widthOverflow :=
  takeNumber_append h.width_digits h.width_end

theorem Longest.takeGrouping_eq (h : cut.Longest) :
    takeGrouping cut.afterWidth = ofSeparators cut.afterSeparators cut.separators :=
  takeGrouping_append cut.separators h.separators_end

theorem Longest.takePrecision_eq (h : cut.Longest) :
    takePrecision cut.afterSeparators = ofPrecision cut.rest cut.precision :=
  takePrecision_append h.no_precision h.precision_digits h.precision_end

theorem ofSeparators_of_le {separators : List Grouping} (h : separators.length ≤ 1)
    (rest : List Char) : ofSeparators rest separators = .ok (separators.head?, rest) := by
  match separators with
  | [] => rfl
  | [_] => rfl
  | _ :: _ :: _ => simp at h

theorem ofPrecision_of_lt {precision : Option (List Char)}
    (h : ∀ run ∈ precision, run ≠ [] ∧ Numeral.readDecimal run < numberBound) (rest : List Char) :
    ofPrecision rest precision = .ok (precision.bind runValue?, rest) := by
  cases precision with
  | none => rfl
  | some run =>
      rcases h run rfl with ⟨hnil, hlt⟩
      simp [ofPrecision, hnil, hlt]

/-- The first defect of the longest cut is what the parser reports. -/
theorem parse_of_firstDefect (hcut : cut.text = text.toList) (hlongest : cut.Longest)
    {e : FormatError} (h : cut.FirstDefect typeName text e) : parse typeName text = .error e := by
  rw [parse_eq hcut hlongest, hlongest.takeNumber_eq]
  -- One case for each place where the readers stop; the parts before it are in order.
  cases h with
  | width hwidth =>
      simp [Nat.not_lt.mpr hwidth, bind, Except.bind]
  | repeatedSeparator hwidth h =>
      simp [hwidth, hlongest.takeGrouping_eq, h, ofSeparators, bind, Except.bind]
  | mixedSeparators hwidth h hne =>
      simp [hwidth, hlongest.takeGrouping_eq, h, ofSeparators, hne, bind, Except.bind]
  | noPrecision hwidth hseparators h =>
      simp [hwidth, hlongest.takeGrouping_eq, ofSeparators_of_le hseparators,
        hlongest.takePrecision_eq, h, ofPrecision, bind, Except.bind]
  | @precision hwidth hseparators run h hrun =>
      -- The empty run would count as zero, which is not too great.
      have hnil : run ≠ [] := by
        rintro rfl
        exact absurd hrun (by decide)
      simp [hwidth, hlongest.takeGrouping_eq, ofSeparators_of_le hseparators,
        hlongest.takePrecision_eq, h, ofPrecision, hnil, Nat.not_lt.mpr hrun, bind, Except.bind]
  | leftOver hwidth hseparators hprecision hrest =>
      rcases h : cut.rest with _ | ⟨c, _ | ⟨d, others⟩⟩
      · simp [h] at hrest
      · simp [h] at hrest
      · simp [hwidth, hlongest.takeGrouping_eq, ofSeparators_of_le hseparators,
          hlongest.takePrecision_eq, ofPrecision_of_lt hprecision, h, bind, Except.bind]

/-- The specifier of a sound longest cut is what the parser yields. -/
theorem parse_of_sound (hcut : cut.text = text.toList) (hlongest : cut.Longest)
    (hsound : cut.Sound) : parse typeName text = .ok cut.spec := by
  have hprecision : ∀ run ∈ cut.precision, run ≠ [] ∧ Numeral.readDecimal run < numberBound :=
    fun run hrun => ⟨hsound.precision_ne_nil run hrun, hsound.precision_lt run hrun⟩
  rw [parse_eq hcut hlongest, hlongest.takeNumber_eq, if_pos hsound.width_lt]
  have hrest := hsound.rest_le
  match h : cut.rest with
  | [] =>
      simp [hlongest.takeGrouping_eq, ofSeparators_of_le hsound.separators_le,
        hlongest.takePrecision_eq, ofPrecision_of_lt hprecision, h, bind, Except.bind, spec]
  | [c] =>
      simp [hlongest.takeGrouping_eq, ofSeparators_of_le hsound.separators_le,
        hlongest.takePrecision_eq, ofPrecision_of_lt hprecision, h, bind, Except.bind, spec]
  | _ :: _ :: _ => simp [h] at hrest

/-- A text is refused exactly for the first defect of its longest cut. -/
theorem parse_eq_error_iff {e : FormatError} :
    parse typeName text = .error e ↔
      ∃ cut : Cut, cut.text = text.toList ∧ cut.Longest ∧ cut.FirstDefect typeName text e := by
  constructor
  · intro h
    rcases exists_longest text.toList with ⟨cut, hcut, hlongest⟩
    refine ⟨cut, hcut, hlongest, ?_⟩
    -- The longest cut has a first defect, since a sound one would have been accepted.
    rcases exists_firstDefect_or_sound cut typeName text with ⟨e', hdefect⟩ | hsound
    · have he : e = e' := by
        simpa [h] using parse_of_firstDefect hcut hlongest hdefect
      exact he ▸ hdefect
    · simp [parse_of_sound hcut hlongest hsound] at h
  · rintro ⟨cut, hcut, hlongest, hdefect⟩
    exact parse_of_firstDefect hcut hlongest hdefect

/-- A text is accepted exactly if its longest cut is sound. -/
theorem parse_eq_ok_iff {s : Spec} :
    parse typeName text = .ok s ↔
      ∃ cut : Cut, cut.text = text.toList ∧ cut.Longest ∧ cut.Sound ∧ cut.spec = s := by
  constructor
  · intro h
    rcases exists_longest text.toList with ⟨cut, hcut, hlongest⟩
    rcases exists_firstDefect_or_sound cut typeName text with ⟨e, hdefect⟩ | hsound
    · simp [parse_of_firstDefect hcut hlongest hdefect] at h
    · have hok : parse typeName text = .ok cut.spec := parse_of_sound hcut hlongest hsound
      exact ⟨cut, hcut, hlongest, hsound, Except.ok.inj (hok.symm.trans h)⟩
  · rintro ⟨cut, hcut, hlongest, hsound, rfl⟩
    exact parse_of_sound hcut hlongest hsound

end Cut
end Spec
end FormatCheck
