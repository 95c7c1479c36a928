import FormatCheck.Proofs.Log.Validation
import FormatCheck.Proofs.Text.Lines
import FormatCheck.Session

/-!
# Written logs are valid

The text of a log has one line for each of its entries, whatever characters these hold. The validator
finds that many lines and no issue in it, and reads each line as the entry it was written from.
-/

namespace FormatCheck

/-! ## Lines -/

namespace Text

theorem trim_eq_self {a b : Char} (ha : isWhiteSpace a = false) (hb : isWhiteSpace b = false)
    (s : List Char) : trim (a :: (s ++ [b])) = a :: (s ++ [b]) := by
  simp [trim, ha, hb]

end Text

namespace Log

theorem lineIssues_of_ok {line : List Char} {entry : LogEntry}
    (h : validateLine (String.ofList line) = .ok entry) (number : Nat) :
    lineIssues number line = [] := by
  rw [lineIssues, h]

theorem validateLines_of_ok {texts : List (List Char)}
    (h : ∀ text ∈ texts, text ≠ [] ∧ Text.trim text = text ∧
      ∃ entry, validateLine (String.ofList text) = .ok entry) (number : Nat) :
    validateLines number texts = ⟨texts.length, []⟩ := by
  induction texts generalizing number with
  | nil =>
      rfl
  | cons text texts ih =>
      rcases h text List.mem_cons_self with ⟨hne, htrim, entry, hentry⟩
      have hrest := ih (fun t ht => h t (List.mem_cons_of_mem text ht)) (number + 1)
      simp only [validateLines, htrim, if_neg hne, hrest, lineIssues_of_ok hentry number]
      rfl

/-! ## Logs -/

theorem line_toList (entry : LogEntry) :
    entry.line.toList = '{' :: (Json.compactMembers entry.members ++ ['}']) := by
  rw [LogEntry.line, Json.compact, String.toList_ofList, LogEntry.toJson_eq, Json.compactText]

theorem lineFeed_notMem_line {entry : LogEntry} (hvalid : entry.Valid)
    (hdetails : entry.DetailsLegible) : '\n' ∉ entry.line.toList := by
  rw [LogEntry.line, Json.compact, String.toList_ofList]
  intro hmem
  exact Json.oneLine_compactText (hvalid.bounded.legible hdetails) '\n' hmem (by decide)

variable {entries : List LogEntry}

theorem lines_logText (h : ∀ entry ∈ entries, entry.Valid ∧ entry.DetailsLegible) :
    Text.lines (Session.logText entries).toList = entries.map fun entry => entry.line.toList := by
  have htext : (Session.logText entries).toList =
      (entries.map fun entry => entry.line.toList).flatMap (· ++ ['\n']) := by
    simp [Session.logText, String.toList_join, List.flatMap_map]
  rw [htext, Text.lines_flatMap]
  intro text htext
  rcases List.mem_map.mp htext with ⟨entry, hentry, rfl⟩
  exact lineFeed_notMem_line (h entry hentry).1 (h entry hentry).2

/-- The text of valid entries has a line for each of them and no issue. -/
theorem validateFile_logText (h : ∀ entry ∈ entries, entry.Valid ∧ entry.DetailsLegible) :
    validateFile (Session.logText entries) = ⟨entries.length, []⟩ := by
  rw [validateFile, lines_logText h, validateLines_of_ok]
  · rw [List.length_map]
  · intro text htext
    rcases List.mem_map.mp htext with ⟨entry, hentry, rfl⟩
    rcases h entry hentry with ⟨hvalid, hdetails⟩
    -- A line stands between braces, so it is not blank and nothing is trimmed off it.
    have hline := line_toList entry
    refine ⟨?_, ?_, entry.canonical, ?_⟩
    · rw [hline]
      exact List.cons_ne_nil _ _
    · rw [hline]
      exact Text.trim_eq_self (by decide) (by decide) _
    · rw [String.ofList_toList]
      exact validateLine_line hvalid hdetails

/-- The lines of the text are read, one by one, as the entries it was written from. -/
theorem map_validateLine_logText (h : ∀ entry ∈ entries, entry.Valid ∧ entry.DetailsLegible)
    (hcanonical : ∀ entry ∈ entries, entry.canonical = entry) :
    (Text.lines (Session.logText entries).toList).map
        (fun line => validateLine (String.ofList line)) = entries.map Except.ok := by
  rw [lines_logText h, List.map_map]
  refine List.map_congr_left ?_
  intro entry hentry
  have hline := validateLine_line (h entry hentry).1 (h entry hentry).2
  rw [hcanonical entry hentry] at hline
  rw [Function.comp_apply, String.ofList_toList, hline]

end Log
end FormatCheck
