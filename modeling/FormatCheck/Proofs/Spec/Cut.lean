import FormatCheck.Proofs.Text.Run
import FormatCheck.Spec.Parser
import Mathlib.Data.List.TakeWhile

/-!
# Texts cut by the grammar of specifiers

A `Cut` is a text divided into the parts of `[[fill]align][sign][#][0][width][grouping][.precision]`
and a rest. The grammar is ambiguous, so a text has many cuts, but it has a longest one: an
alignment in the second place makes the first character the fill, and every other part takes all
that it can. `exists_longest` says that there is such a cut, and the lemmas before it say of each
reader that it takes exactly its part of it.

`FirstDefect` says which defect of a cut comes first.
-/

namespace FormatCheck

open Text (Stops stops_nil stops_cons stops_dropWhile takeWhile_run dropWhile_run)

/-! ## Characters of the grammar -/

/-- Looking for the member of a family that a character stands for. -/
theorem find?_toChar_eq_some_iff {α : Type} {toChar : α → Char}
    (hinjective : ∀ a b, toChar a = toChar b → a = b) {all : List α} (hall : ∀ a, a ∈ all)
    {c : Char} {a : α} : all.find? (fun b => toChar b = c) = some a ↔ toChar a = c := by
  constructor
  · intro h
    simpa using List.find?_some h
  · intro h
    -- The search finds something, since `a` itself passes the test.
    cases hfind : all.find? (fun b => toChar b = c) with
    | none =>
        have hne := List.find?_eq_none.mp hfind a (hall a)
        simp [h] at hne
    | some b =>
        have hb : toChar b = c := by simpa using List.find?_some hfind
        rw [hinjective b a (hb.trans h.symm)]

theorem Align.ofChar?_eq_some_iff {c : Char} {a : Align} : ofChar? c = some a ↔ a.toChar = c := by
  refine find?_toChar_eq_some_iff ?_ ?_
  · intro a b h
    cases a <;> cases b <;> first | rfl | exact absurd h (by decide)
  · intro a
    cases a <;> simp

theorem Sign.ofChar?_eq_some_iff {c : Char} {s : Sign} : ofChar? c = some s ↔ s.toChar = c := by
  refine find?_toChar_eq_some_iff ?_ ?_
  · intro a b h
    cases a <;> cases b <;> first | rfl | exact absurd h (by decide)
  · intro a
    cases a <;> simp

theorem Grouping.ofChar?_eq_some_iff {c : Char} {g : Grouping} :
    ofChar? c = some g ↔ g.toChar = c := by
  refine find?_toChar_eq_some_iff ?_ ?_
  · intro a b h
    cases a <;> cases b <;> first | rfl | exact absurd h (by decide)
  · intro a
    cases a <;> simp

namespace Spec

/-- The character begins something that `read` accepts. -/
def accepts {α : Type} (read : Char → Option α) (c : Char) : Bool := (read c).isSome

def flagText (c : Char) (flag : Bool) : List Char := if flag then [c] else []

/-! ## Readers and their parts -/

variable {s rest : List Char}

/-- A flag is taken exactly where the text begins with it. -/
theorem takeFlag_eq_iff {c : Char} {flag : Bool} :
    takeFlag c s = (flag, rest) ↔
      s = flagText c flag ++ rest ∧ (flag = false → Stops (· == c) rest) := by
  constructor
  · intro h
    cases s with
    | nil =>
        cases h
        exact ⟨rfl, fun _ => stops_nil _⟩
    | cons c' s =>
        by_cases hc : c' = c
        · rw [takeFlag, if_pos hc] at h
          cases h
          simp [flagText, hc]
        · rw [takeFlag, if_neg hc] at h
          cases h
          exact ⟨rfl, fun _ => stops_cons (by simpa using hc) s⟩
  · rintro ⟨rfl, hstops⟩
    cases flag with
    | true =>
        simp [flagText, takeFlag]
    | false =>
        cases rest with
        | nil => rfl
        | cons c' rest =>
            have hc : c' ≠ c := by simpa [Stops] using hstops rfl
            simp [flagText, takeFlag, hc]

/-- A character of a family is taken exactly where the text begins with one. -/
theorem takeOption_eq_iff {α : Type} {read : Char → Option α} {toChar : α → Char}
    (hread : ∀ {c : Char} {a : α}, read c = some a ↔ toChar a = c) {x : Option α} :
    takeOption read s = (x, rest) ↔
      s = (x.map toChar).toList ++ rest ∧ (x = none → Stops (accepts read) rest) := by
  constructor
  · intro h
    cases s with
    | nil =>
        cases h
        exact ⟨rfl, fun _ => stops_nil _⟩
    | cons c s =>
        cases hc : read c with
        | some a =>
            simp only [takeOption, hc] at h
            cases h
            simp [hread.mp hc]
        | none =>
            simp only [takeOption, hc] at h
            cases h
            exact ⟨rfl, fun _ => stops_cons (by simp [accepts, hc]) s⟩
  · rintro ⟨rfl, hstops⟩
    cases x with
    | some a =>
        have ha : read (toChar a) = some a := hread.mpr rfl
        simp [takeOption, ha]
    | none =>
        cases rest with
        | nil => rfl
        | cons c rest =>
            have hc : read c = none := by simpa [Stops, accepts] using hstops rfl
            simp [takeOption, hc]

/-- An alignment in the second place comes first: it is taken with the character before it. -/
theorem takeAlign_eq_iff {fill : Option Char} {align : Option Align} :
    takeAlign s = ((fill, align), rest) ↔
      s = fill.toList ++ (align.map Align.toChar).toList ++ rest ∧
        (fill.isSome → align.isSome) ∧
        (fill = none → Stops (accepts Align.ofChar?) (s.drop 1)) ∧
        (align = none → Stops (accepts Align.ofChar?) s) := by
  have hread (a : Align) : Align.ofChar? a.toChar = some a := Align.ofChar?_eq_some_iff.mpr rfl
  constructor
  · -- What was taken: the cases are those of the reader, on the first two characters.
    intro h
    match s with
    | [] =>
        cases h
        simp [stops_nil]
    | [c] =>
        cases hc : Align.ofChar? c with
        | some a =>
            simp only [takeAlign, hc] at h
            cases h
            simp [Align.ofChar?_eq_some_iff.mp hc, stops_nil]
        | none =>
            simp only [takeAlign, hc] at h
            cases h
            simp [stops_nil, stops_cons, accepts, hc]
    | f :: c :: s =>
        cases hc : Align.ofChar? c with
        | some a =>
            simp only [takeAlign, hc] at h
            cases h
            simp [Align.ofChar?_eq_some_iff.mp hc]
        | none =>
            cases hf : Align.ofChar? f with
            | some a =>
                simp only [takeAlign, hc, hf] at h
                cases h
                simp [Align.ofChar?_eq_some_iff.mp hf, stops_cons, accepts, hc]
            | none =>
                simp only [takeAlign, hc, hf] at h
                cases h
                simp [stops_cons, accepts, hc, hf]
  · -- What is taken: an alignment further to the right than the second place never counts.
    rintro ⟨rfl, hfill, hsecond, hfirst⟩
    cases fill with
    | some f =>
        rcases Option.isSome_iff_exists.mp (hfill rfl) with ⟨a, rfl⟩
        simp [takeAlign, hread]
    | none =>
        cases align with
        | some a =>
            cases rest with
            | nil => simp [takeAlign, hread]
            | cons c rest =>
                have hc : Align.ofChar? c = none := by simpa [Stops, accepts] using hsecond rfl
                simp [takeAlign, hread, hc]
        | none =>
            match rest with
            | [] => rfl
            | [c] =>
                have hc : Align.ofChar? c = none := by simpa [Stops, accepts] using hfirst rfl
                simp [takeAlign, hc]
            | f :: c :: rest =>
                have hc : Align.ofChar? c = none := by simpa [Stops, accepts] using hsecond rfl
                have hf : Align.ofChar? f = none := by simpa [Stops, accepts] using hfirst rfl
                simp [takeAlign, hc, hf]

/-- The number that a run of digits stands for, none for the empty run. -/
def runValue? (run : List Char) : Option Nat :=
  if run = [] then none else some (Numeral.readDecimal run)

/-- A number is read from the whole run of digits, unless it is too great. -/
theorem takeNumber_append {run : List Char} (hrun : ∀ c ∈ run, c.isDigit = true)
    (hrest : Stops Char.isDigit rest) :
    takeNumber (run ++ rest) =
      if Numeral.readDecimal run < numberBound then .ok (runValue? run, rest)
      else .error .widthOverflow := by
  simp only [takeNumber, takeWhile_run hrun hrest, dropWhile_run hrun hrest, runValue?]
  by_cases hnil : run = []
  · -- The empty run counts as zero, which is in range.
    have hfits : Numeral.readDecimal [] < numberBound := by decide
    simp [hnil, hfits]
  · simp [hnil]

/-- What becomes of a run of separators: the first two decide. -/
def ofSeparators (rest : List Char) : List Grouping → Except FormatError (Option Grouping × List Char)
  | [] => .ok (none, rest)
  | [g] => .ok (some g, rest)
  | g :: g' :: _ =>
    if g' = g then .error (.groupingNotAllowed g.toChar g.toChar) else .error .mixedGrouping

theorem takeGrouping_append (separators : List Grouping)
    (hrest : Stops (accepts Grouping.ofChar?) rest) :
    takeGrouping (separators.map Grouping.toChar ++ rest) = ofSeparators rest separators := by
  have hread (g : Grouping) (s : List Char) :
      takeOption Grouping.ofChar? (g.toChar :: s) = (some g, s) :=
    (takeOption_eq_iff Grouping.ofChar?_eq_some_iff).mpr ⟨rfl, nofun⟩
  have hend : takeOption Grouping.ofChar? rest = (none, rest) :=
    (takeOption_eq_iff Grouping.ofChar?_eq_some_iff).mpr ⟨rfl, fun _ => hrest⟩
  match separators with
  | [] => simp [takeGrouping, ofSeparators, hend]
  | [g] => simp [takeGrouping, ofSeparators, hread, hend]
  | g :: g' :: _ => simp [takeGrouping, ofSeparators, hread]

/-- The text of a point and the digits after it, where there is one. -/
def pointText (precision : Option (List Char)) : List Char :=
  (precision.map fun run => '.' :: run).getD []

/-- What becomes of a point and the run of digits after it. -/
def ofPrecision (rest : List Char) :
    Option (List Char) → Except FormatError (Option Nat × List Char)
  | none => .ok (none, rest)
  | some run =>
    if run = [] then .error .missingPrecision
    else if Numeral.readDecimal run < numberBound then .ok (runValue? run, rest)
    else .error .widthOverflow

theorem takePrecision_append {precision : Option (List Char)}
    (hnone : precision = none → Stops (· == '.') rest)
    (hrun : ∀ run ∈ precision, ∀ c ∈ run, c.isDigit = true)
    (hrest : precision.isSome → Stops Char.isDigit rest) :
    takePrecision (pointText precision ++ rest) = ofPrecision rest precision := by
  cases precision with
  | none =>
      have hpoint : takeFlag '.' rest = (false, rest) :=
        takeFlag_eq_iff.mpr ⟨rfl, fun _ => hnone rfl⟩
      simp [takePrecision, pointText, ofPrecision, hpoint]
  | some run =>
      -- The point is taken first; what is left is a number as it stands in a width.
      have hpoint : takeFlag '.' ('.' :: (run ++ rest)) = (true, run ++ rest) := by
        simp [takeFlag]
      have hnumber := takeNumber_append (hrun run rfl) (hrest rfl)
      by_cases hnil : run = []
      · subst hnil
        have hfits : Numeral.readDecimal [] < numberBound := by decide
        simp_all [takePrecision, pointText, ofPrecision, runValue?]
      · by_cases hfits : Numeral.readDecimal run < numberBound
        · simp [takePrecision, pointText, ofPrecision, hpoint, hnumber, runValue?, hnil, hfits]
        · simp [takePrecision, pointText, ofPrecision, hpoint, hnumber, hnil, hfits]

/-! ## Cuts -/

/-- A text divided into the parts of the grammar and what is left over. -/
structure Cut where
  fill : Option Char
  align : Option Align
  sign : Option Sign
  alternate : Bool
  zeroPad : Bool
  /-- The digits of the width. -/
  width : List Char
  separators : List Grouping
  /-- The digits after the point, where there is a point. -/
  precision : Option (List Char)
  rest : List Char

namespace Cut

variable (cut : Cut)

/-! What follows each part, from the end of the text to its front. -/

def afterSeparators : List Char := pointText cut.precision ++ cut.rest

def afterWidth : List Char := cut.separators.map Grouping.toChar ++ cut.afterSeparators

def afterZeroPad : List Char := cut.width ++ cut.afterWidth

def afterAlternate : List Char := flagText '0' cut.zeroPad ++ cut.afterZeroPad

def afterSign : List Char := flagText '#' cut.alternate ++ cut.afterAlternate

def afterAlign : List Char := (cut.sign.map Sign.toChar).toList ++ cut.afterSign

def text : List Char := cut.fill.toList ++ (cut.align.map Align.toChar).toList ++ cut.afterAlign

/-- Every part is as long as it can be, from left to right. Only an alignment brings a fill, and a
`0` after a fill belongs to the width. -/
structure Longest : Prop where
  align_of_fill : cut.fill.isSome → cut.align.isSome
  no_fill : cut.fill = none → Stops (accepts Align.ofChar?) (cut.text.drop 1)
  no_align : cut.align = none → Stops (accepts Align.ofChar?) cut.text
  no_sign : cut.sign = none → Stops (accepts Sign.ofChar?) cut.afterSign
  no_alternate : cut.alternate = false → Stops (· == '#') cut.afterAlternate
  no_zeroPad : cut.fill = none → cut.zeroPad = false → Stops (· == '0') cut.afterZeroPad
  zeroPad_of_fill : cut.fill.isSome → cut.zeroPad = false
  width_digits : ∀ c ∈ cut.width, c.isDigit = true
  width_end : Stops Char.isDigit cut.afterWidth
  separators_end : Stops (accepts Grouping.ofChar?) cut.afterSeparators
  no_precision : cut.precision = none → Stops (· == '.') cut.rest
  precision_digits : ∀ run ∈ cut.precision, ∀ c ∈ run, c.isDigit = true
  precision_end : cut.precision.isSome → Stops Char.isDigit cut.rest

end Cut

/-- Separators at the front of a text, all of them. -/
theorem exists_separators (s : List Char) :
    ∃ (separators : List Grouping) (rest : List Char),
      s = separators.map Grouping.toChar ++ rest ∧ Stops (accepts Grouping.ofChar?) rest := by
  induction s with
  | nil =>
      exact ⟨[], [], rfl, stops_nil _⟩
  | cons c s ih =>
      cases hc : Grouping.ofChar? c with
      | none =>
          exact ⟨[], c :: s, rfl, stops_cons (by simp [accepts, hc]) s⟩
      | some g =>
          rcases ih with ⟨separators, rest, rfl, hstops⟩
          refine ⟨g :: separators, rest, ?_, hstops⟩
          simp [Grouping.ofChar?_eq_some_iff.mp hc]

/-- The digits at the front of a text, all of them. -/
theorem exists_run (s : List Char) :
    ∃ run rest : List Char, s = run ++ rest ∧ (∀ c ∈ run, c.isDigit = true) ∧
      Stops Char.isDigit rest := by
  refine ⟨s.takeWhile Char.isDigit, s.dropWhile Char.isDigit, ?_, ?_, stops_dropWhile _ _⟩
  · exact List.takeWhile_append_dropWhile.symm
  · intro c hc
    exact List.mem_takeWhile_imp hc

/-- A point at the front of a text, and the digits after it. -/
theorem exists_precision (s : List Char) :
    ∃ (precision : Option (List Char)) (rest : List Char), s = pointText precision ++ rest ∧
      (precision = none → Stops (· == '.') rest) ∧
      (∀ run ∈ precision, ∀ c ∈ run, c.isDigit = true) ∧
      (precision.isSome → Stops Char.isDigit rest) := by
  rcases hpoint : takeFlag '.' s with ⟨point, s'⟩
  rcases takeFlag_eq_iff.mp hpoint with ⟨rfl, hstops⟩
  cases point with
  | false =>
      exact ⟨none, s', rfl, fun _ => hstops rfl, nofun, nofun⟩
  | true =>
      rcases exists_run s' with ⟨run, rest, rfl, hrun, hrest⟩
      refine ⟨some run, rest, rfl, nofun, ?_, fun _ => hrest⟩
      intro run' hrun'
      cases hrun'
      exact hrun

/-- A `0` flag, which a fill excludes. -/
theorem exists_zeroPad (fill : Option Char) (s : List Char) :
    ∃ (zeroPad : Bool) (rest : List Char), s = flagText '0' zeroPad ++ rest ∧
      (fill = none → zeroPad = false → Stops (· == '0') rest) ∧
      (fill.isSome → zeroPad = false) := by
  cases fill with
  | some f =>
      exact ⟨false, s, rfl, nofun, fun _ => rfl⟩
  | none =>
      rcases hzero : takeFlag '0' s with ⟨zeroPad, rest⟩
      rcases takeFlag_eq_iff.mp hzero with ⟨hs, hstops⟩
      exact ⟨zeroPad, rest, hs, fun _ => hstops, nofun⟩

/-- Every text has a longest cut. -/
theorem exists_longest (text : List Char) : ∃ cut : Cut, cut.text = text ∧ cut.Longest := by
  -- The parts are found from left to right, each in what the one before it left.
  rcases halign : takeAlign text with ⟨⟨fill, align⟩, s₁⟩
  rcases takeAlign_eq_iff.mp halign with ⟨htext, hfill, hsecond, hfirst⟩
  rcases hsign : takeOption Sign.ofChar? s₁ with ⟨sign, s₂⟩
  rcases (takeOption_eq_iff Sign.ofChar?_eq_some_iff).mp hsign with ⟨rfl, hnosign⟩
  rcases halternate : takeFlag '#' s₂ with ⟨alternate, s₃⟩
  rcases takeFlag_eq_iff.mp halternate with ⟨rfl, hnoalternate⟩
  rcases exists_zeroPad fill s₃ with ⟨zeroPad, s₄, rfl, hnozero, hzero⟩
  rcases exists_run s₄ with ⟨width, s₅, rfl, hwidth, hwidthEnd⟩
  rcases exists_separators s₅ with ⟨separators, s₆, rfl, hseparators⟩
  rcases exists_precision s₆ with ⟨precision, rest, rfl, hnopoint, hprecision, hprecisionEnd⟩
  let cut : Cut := ⟨fill, align, sign, alternate, zeroPad, width, separators, precision, rest⟩
  have hcut : cut.text = text := htext.symm
  exact ⟨cut, hcut, hfill, hcut ▸ hsecond, hcut ▸ hfirst, hnosign, hnoalternate, hnozero, hzero,
    hwidth, hwidthEnd, hseparators, hnopoint, hprecision, hprecisionEnd⟩

end Spec
end FormatCheck
