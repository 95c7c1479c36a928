import FormatCheck.Proofs.Log.File
import Mathlib.Data.List.TakeWhile

/-!
# Logs one after the other

The report on a log file is put together from what each line has to be blamed for, with the number
of the line. So the report on two logs in one file is that on the first, followed by that on the
second with its issues moved down by the lines of the first. A file has no issue exactly if each line
of it that is not blank is valid, and each issue is one of the line whose number it has.
-/

namespace FormatCheck

/-! ## Blank lines -/

namespace Text

/-- A line of white space only, or an empty one. -/
def isBlank (line : List Char) : Bool := line.all isWhiteSpace

theorem trim_eq_nil_iff (line : List Char) : trim line = [] ↔ isBlank line = true := by
  have hdrop : ∀ s : List Char, s.dropWhile isWhiteSpace = [] ↔ ∀ c ∈ s, isWhiteSpace c = true :=
    fun s => List.dropWhile_eq_nil_iff
  rw [isBlank, List.all_eq_true, trim, List.reverse_eq_nil_iff, hdrop]
  simp only [List.mem_reverse]
  constructor
  · intro h
    -- What is left begins with a character that is no white space, unless nothing is left.
    rw [← hdrop]
    by_contra hne
    have hhead := List.head_dropWhile_not isWhiteSpace hne
    rw [h _ (List.head_mem hne)] at hhead
    cases hhead
  · intro h c hc
    exact h c ((List.dropWhile_sublist _).subset hc)

end Text

namespace Log

/-! ## Lines -/

/-- What is to be said of the line with the given number. -/
def issuesOf (number : Nat) (line : List Char) : List LogIssue :=
  if Text.isBlank line then [] else lineIssues number (Text.trim line)

/-- An issue as it is reported with more lines before it. -/
def movedBy (count : Nat) (issue : LogIssue) : LogIssue := { issue with line := count + issue.line }

theorem validateLines_cons (number : Nat) (line : List Char) (texts : List (List Char)) :
    validateLines number (line :: texts) =
      ⟨(validateLines (number + 1) texts).count + if Text.isBlank line then 0 else 1,
        issuesOf number line ++ (validateLines (number + 1) texts).issues⟩ := by
  rw [validateLines, issuesOf]
  by_cases hblank : Text.isBlank line = true
  · rw [if_pos ((Text.trim_eq_nil_iff line).mpr hblank), if_pos hblank, if_pos hblank]
    rfl
  · rw [if_neg (mt (Text.trim_eq_nil_iff line).mp hblank), if_neg hblank, if_neg hblank]

theorem issuesOf_add (count number : Nat) (line : List Char) :
    issuesOf (count + number) line = (issuesOf number line).map (movedBy count) := by
  unfold issuesOf lineIssues
  split
  · rfl
  · split
    · rfl
    · rw [List.map_map]
      rfl

theorem validateLines_add (count number : Nat) (texts : List (List Char)) :
    validateLines (count + number) texts =
      ⟨(validateLines number texts).count,
        (validateLines number texts).issues.map (movedBy count)⟩ := by
  induction texts generalizing number with
  | nil =>
      rfl
  | cons line texts ih =>
      rw [validateLines_cons, validateLines_cons, Nat.add_assoc, ih, issuesOf_add, List.map_append]

theorem validateLines_append (number : Nat) (xs ys : List (List Char)) :
    validateLines number (xs ++ ys) =
      ⟨(validateLines number xs).count + (validateLines number ys).count,
        (validateLines number xs).issues ++
          (validateLines number ys).issues.map (movedBy xs.length)⟩ := by
  induction xs generalizing number with
  | nil =>
      have hmoved : movedBy 0 = id := by
        funext issue
        simp [movedBy]
      simp [validateLines, hmoved]
  | cons line xs ih =>
      -- The lines behind the first are numbered from one more, which moves their issues once more.
      have hmoved : movedBy xs.length ∘ movedBy 1 = movedBy (line :: xs).length := by
        funext issue
        simp [movedBy, Nat.add_assoc]
      have hnext := validateLines_add 1 number ys
      rw [Nat.add_comm 1 number] at hnext
      rw [List.cons_append, validateLines_cons, validateLines_cons, ih, hnext, List.map_map, hmoved]
      simp only [List.append_assoc, FileReport.mk.injEq, and_true]
      omega

theorem count_validateLines (number : Nat) (texts : List (List Char)) :
    (validateLines number texts).count = texts.countP fun line => !Text.isBlank line := by
  induction texts generalizing number with
  | nil =>
      rfl
  | cons line texts ih =>
      rw [validateLines_cons, List.countP_cons, ih]
      cases Text.isBlank line <;> rfl

/-- The issues of a file are those of its lines, in order. -/
theorem issues_validateLines (number : Nat) (texts : List (List Char)) :
    (validateLines number texts).issues =
      (texts.zipIdx number).flatMap fun numbered => issuesOf numbered.2 numbered.1 := by
  induction texts generalizing number with
  | nil =>
      rfl
  | cons line texts ih =>
      rw [validateLines_cons, List.zipIdx_cons, List.flatMap_cons, ih]

/-! ## Issues -/

/-- A line that is refused is refused for a reason. -/
theorem ne_nil_of_validateLine_eq_error {line : String} {defects : List LogDefect}
    (h : validateLine line = .error defects) : defects ≠ [] := by
  unfold validateLine at h
  split at h
  · cases h
    exact List.cons_ne_nil _ _
  · dsimp only at h
    split at h
    · next hne =>
      cases h
      exact hne
    · split at h
      · cases h
      · cases h
        exact List.cons_ne_nil _ _
  · cases h
    exact List.cons_ne_nil _ _

/-- A line that is not blank and not valid, for this reason among others. -/
def HasDefect (line : List Char) (defect : LogDefect) : Prop :=
  Text.isBlank line = false ∧
    ∃ defects, validateLine (String.ofList (Text.trim line)) = .error defects ∧ defect ∈ defects

theorem mem_issuesOf_iff {number : Nat} {line : List Char} {issue : LogIssue} :
    issue ∈ issuesOf number line ↔ issue.line = number ∧ HasDefect line issue.defect := by
  unfold issuesOf lineIssues HasDefect
  cases hblank : Text.isBlank line with
  | true =>
      simp
  | false =>
      cases hline : validateLine (String.ofList (Text.trim line)) with
      | ok entry =>
          simp
      | error defects =>
          simp only [Bool.false_eq_true, if_false, List.mem_map, true_and, Except.error.injEq,
            exists_eq_left']
          constructor
          · rintro ⟨defect, hdefect, rfl⟩
            exact ⟨rfl, hdefect⟩
          · rintro ⟨rfl, hdefect⟩
            exact ⟨issue.defect, hdefect, rfl⟩

theorem issuesOf_eq_nil_iff {number : Nat} {line : List Char} :
    issuesOf number line = [] ↔ (Text.isBlank line = false →
      ∃ entry, validateLine (String.ofList (Text.trim line)) = .ok entry) := by
  unfold issuesOf lineIssues
  cases hblank : Text.isBlank line with
  | true =>
      simp
  | false =>
      cases hline : validateLine (String.ofList (Text.trim line)) with
      | ok entry =>
          simp
      | error defects =>
          simp [ne_nil_of_validateLine_eq_error hline]

theorem issues_validateLines_eq_nil_iff (number : Nat) (texts : List (List Char)) :
    (validateLines number texts).issues = [] ↔ ∀ line ∈ texts, Text.isBlank line = false →
      ∃ entry, validateLine (String.ofList (Text.trim line)) = .ok entry := by
  induction texts generalizing number with
  | nil =>
      exact iff_of_true rfl (List.forall_mem_nil _)
  | cons line texts ih =>
      rw [validateLines_cons, List.append_eq_nil_iff, issuesOf_eq_nil_iff, ih,
        List.forall_mem_cons]

theorem mem_issues_validateLines_iff (number : Nat) (texts : List (List Char)) (issue : LogIssue) :
    issue ∈ (validateLines number texts).issues ↔
      number ≤ issue.line ∧ ∃ line, texts[issue.line - number]? = some line ∧
        HasDefect line issue.defect := by
  rw [issues_validateLines, List.mem_flatMap]
  constructor
  · rintro ⟨⟨line, place⟩, hline, hissue⟩
    rw [List.mk_mem_zipIdx_iff_le_and_getElem?_sub] at hline
    rcases mem_issuesOf_iff.mp hissue with ⟨rfl, hdefect⟩
    exact ⟨hline.1, line, hline.2, hdefect⟩
  · rintro ⟨hplace, line, hline, hdefect⟩
    have hnumbered := List.mk_mem_zipIdx_iff_le_and_getElem?_sub.mpr ⟨hplace, hline⟩
    exact ⟨(line, issue.line), hnumbered, mem_issuesOf_iff.mpr ⟨rfl, hdefect⟩⟩

/-! ## Files -/

/-- The report on two logs, one after the other in a file, is put together from the reports on each:
the lines that are not blank are counted together, and the issues of the second log have the lines
of the first counted before theirs. So a log has no issue exactly if each of its lines is blank or
valid, and each issue is a defect of the line whose number it has. -/
theorem validateFile_append :
    (∀ a b : String, Text.EndsLine a.toList →
      (Text.lines a.toList).length = a.toList.count '\n' ∧
        validateFile (a ++ b) =
          ⟨(validateFile a).count + (validateFile b).count,
            (validateFile a).issues ++
              (validateFile b).issues.map (movedBy (Text.lines a.toList).length)⟩) ∧
      ∀ content : String,
        (validateFile content).count =
            (Text.lines content.toList).countP (fun line => !Text.isBlank line) ∧
          ((validateFile content).issues = [] ↔
            ∀ line ∈ Text.lines content.toList, Text.isBlank line = false →
              ∃ entry, validateLine (String.ofList (Text.trim line)) = .ok entry) ∧
          ∀ issue, issue ∈ (validateFile content).issues ↔
            0 < issue.line ∧ ∃ line, (Text.lines content.toList)[issue.line - 1]? = some line ∧
              HasDefect line issue.defect := by
  constructor
  · intro a b ha
    refine ⟨Text.length_lines ha, ?_⟩
    rw [validateFile, String.toList_append, Text.lines_append ha, validateLines_append]
    rfl
  · intro content
    exact ⟨count_validateLines 1 _, issues_validateLines_eq_nil_iff 1 _,
      mem_issues_validateLines_iff 1 _⟩

/-- A blank line and a bad one, and behind them a bad line that no line feed ends. -/
theorem validateFile_append_badLines :
    Text.EndsLine "\n[]\r\n".toList ∧
      validateFile ("\n[]\r\n" ++ "1") = ⟨2, [⟨2, .notAnObject⟩, ⟨3, .notAnObject⟩]⟩ := by
  have hends : Text.EndsLine "\n[]\r\n".toList := Or.inr rfl
  have hfirst : validateFile "\n[]\r\n" = ⟨1, [⟨2, .notAnObject⟩]⟩ := by decide
  have hsecond : validateFile "1" = ⟨1, [⟨1, .notAnObject⟩]⟩ := by decide
  have happend := (validateFile_append.1 "\n[]\r\n" "1" hends).2
  rw [hfirst, hsecond] at happend
  exact ⟨hends, happend⟩

end Log
end FormatCheck
