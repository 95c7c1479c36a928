import FormatCheck.Proofs.Spec.Canonical

/-!
# The grammar of specifiers

Reading a specifier loses nothing: the text is the concatenation of the parts that the specifier
names, and the specifier is read again from its canonical text. Reading fails exactly for the first
defect of the longest cut of the text.
-/

namespace FormatCheck
namespace Spec

/-- The run of digits is a numeral of the number; without a number it is empty. -/
def IsRunOf : Option Nat → List Char → Prop
  | none, run => run = []
  | some n, run => run ≠ [] ∧ (∀ c ∈ run, c.isDigit = true) ∧ Numeral.readDecimal run = n

/-- The text consists of the parts of the specifier in the order of the grammar, its numbers written
in any number of digits. -/
structure WrittenAs (spec : Spec) (text : List Char) : Prop where
  align_of_fill : spec.fill.isSome → spec.align.isSome
  zeroPad_of_fill : spec.fill.isSome → spec.zeroPad = false
  exists_runs : ∃ width precision : List Char,
    IsRunOf spec.width width ∧ IsRunOf spec.precision precision ∧
      text = spec.fill.toList ++ (spec.align.map Align.toChar).toList
        ++ (spec.sign.map Sign.toChar).toList
        ++ flagText '#' spec.alternate
        ++ flagText '0' spec.zeroPad
        ++ width
        ++ (spec.grouping.map Grouping.toChar).toList
        ++ flagText '.' spec.precision.isSome ++ precision
        ++ spec.code.toList

theorem isRunOf_runValue? {run : List Char} (hrun : ∀ c ∈ run, c.isDigit = true) :
    IsRunOf (runValue? run) run := by
  by_cases h : run = []
  · simp [runValue?, IsRunOf, h]
  · simpa [runValue?, IsRunOf, h] using hrun

namespace Cut

variable {cut : Cut}

/-- The digits after the point, none where there is no point. -/
def precisionRun (cut : Cut) : List Char := cut.precision.getD []

theorem Longest.isRunOf_precision (h : cut.Longest) :
    IsRunOf cut.spec.precision cut.precisionRun := by
  cases hrun : cut.precision with
  | none => simp [spec, precisionRun, IsRunOf, hrun]
  | some run =>
      simpa [spec, precisionRun, hrun] using isRunOf_runValue? (h.precision_digits run hrun)

theorem Sound.pointText_eq (h : cut.Sound) :
    flagText '.' cut.spec.precision.isSome ++ cut.precisionRun = pointText cut.precision := by
  cases hrun : cut.precision with
  | none => simp [spec, precisionRun, flagText, pointText, hrun]
  | some run =>
      have hnil : run ≠ [] := h.precision_ne_nil run hrun
      simp [spec, precisionRun, flagText, pointText, runValue?, hrun, hnil]

/-- A text with a sound longest cut consists of the parts of its specifier. -/
theorem writtenAs_text (hlongest : cut.Longest) (hsound : cut.Sound) :
    cut.spec.WrittenAs cut.text := by
  refine ⟨hlongest.align_of_fill, hlongest.zeroPad_of_fill, cut.width, cut.precisionRun,
    isRunOf_runValue? hlongest.width_digits, hlongest.isRunOf_precision, ?_⟩
  have hpoint := hsound.pointText_eq
  have hseparators := hsound.separators_eq
  have hrest := hsound.rest_eq
  -- Without its defects a cut is made of the texts that its specifier names, part for part.
  simp only [spec] at hpoint ⊢
  rw [hseparators, hrest, List.append_assoc _ (flagText '.' _), hpoint]
  simp only [text, afterAlign, afterSign, afterAlternate, afterZeroPad, afterWidth,
    afterSeparators, List.append_assoc]

end Cut

/-- What is read consists of the parts of the specifier in order, and their canonical text is read
as the same specifier. A text is refused exactly for the first defect of its longest cut. -/
theorem parse_grammar (typeName text : String) :
    (∀ spec, parse typeName text = .ok spec →
      spec.WrittenAs text.toList ∧
        ∀ typeName', parse typeName' (String.ofList spec.print) = .ok spec) ∧
    (∀ e, parse typeName text = .error e ↔
      ∃ cut : Cut, cut.text = text.toList ∧ cut.Longest ∧ cut.FirstDefect typeName text e) := by
  refine ⟨?_, fun e => Cut.parse_eq_error_iff⟩
  intro spec h
  refine ⟨?_, parse_print h⟩
  rcases Cut.parse_eq_ok_iff.mp h with ⟨cut, hcut, hlongest, hsound, rfl⟩
  exact hcut ▸ Cut.writtenAs_text hlongest hsound

/-- Every part is there; the zero after the fill is a digit of the width. -/
def everyPart : Spec where
  fill := some '_'
  align := some .right
  sign := some .always
  alternate := true
  width := some 16
  grouping := some .comma
  precision := some 7
  code := some 'f'

theorem parse_grammar_everyPart :
    parse "float" "_>+#016,.07f" = .ok everyPart ∧
      everyPart.WrittenAs "_>+#016,.07f".toList ∧
      parse "float" "_>+#16,.7f" = .ok everyPart ∧
      parse "int" "10,," = .error (.groupingNotAllowed ',' ',') ∧
      ∃ cut : Cut, cut.text = "10,,".toList ∧ cut.Longest ∧
        cut.FirstDefect "int" "10,," (.groupingNotAllowed ',' ',') := by
  have hparse : parse "float" "_>+#016,.07f" = .ok everyPart := by decide +kernel
  have hrefused : parse "int" "10,," = .error (.groupingNotAllowed ',' ',') := by decide +kernel
  have hprint : String.ofList everyPart.print = "_>+#16,.7f" := by decide +kernel
  rcases (parse_grammar "float" "_>+#016,.07f").1 everyPart hparse with ⟨hwritten, hagain⟩
  exact ⟨hparse, hwritten, hprint ▸ hagain "float", hrefused,
    ((parse_grammar "int" "10,,").2 _).mp hrefused⟩

end Spec
end FormatCheck
