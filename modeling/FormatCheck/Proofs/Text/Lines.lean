import FormatCheck.Text.Lines
import Mathlib.Data.List.Basic

/-!
# Cutting at line feeds

The pieces of a text between its line feeds are those of `List.splitOn`, so they are known from the
library: none of them holds a line feed, and joined with line feeds they give the text.

Where a text ends with a line feed, nothing of its last line is in what comes after it, so its lines
and those of the text after it are the lines of both together.
-/

namespace FormatCheck
namespace Text

theorem splitLines_eq_splitOn (s : List Char) : splitLines s = s.splitOn '\n' := by
  induction s with
  | nil =>
      rfl
  | cons c s ih =>
      rw [splitLines, List.splitOn_cons_eq_if_modifyHead, ih]
      cases hpieces : s.splitOn '\n' with
      | nil => exact absurd hpieces (List.splitOn_ne_nil '\n' s)
      | cons first rest => by_cases hc : c = '\n' <;> simp [hc]

theorem splitLines_append {line : List Char} (h : '\n' ∉ line) (rest : List Char) :
    splitLines (line ++ '\n' :: rest) = line :: splitLines rest := by
  rw [splitLines_eq_splitOn, splitLines_eq_splitOn]
  exact List.splitOn_append_cons_self_of_not_mem h rest

/-- Different texts are cut into different pieces. -/
theorem splitLines_inj {s t : List Char} : splitLines s = splitLines t ↔ s = t := by
  have hjoin : ∀ s, ['\n'].intercalate (splitLines s) = s := by
    intro s
    rw [splitLines_eq_splitOn, List.intercalate_splitOn]
  refine ⟨fun h => ?_, congrArg splitLines⟩
  rw [← hjoin s, h, hjoin t]

/-- Lines that end with line feeds are the lines of the whole. -/
theorem lines_flatMap {texts : List (List Char)} (h : ∀ text ∈ texts, '\n' ∉ text) :
    lines (texts.flatMap (· ++ ['\n'])) = texts := by
  -- After the last line feed there is one more piece, an empty one.
  have hpieces : splitLines (texts.flatMap (· ++ ['\n'])) = texts ++ [[]] := by
    induction texts with
    | nil =>
        rfl
    | cons text texts ih =>
        have htext := h text List.mem_cons_self
        have htexts := ih fun t ht => h t (List.mem_cons_of_mem text ht)
        rw [List.flatMap_cons, List.append_assoc, List.singleton_append,
          splitLines_append htext, htexts, List.cons_append]
  rw [lines, hpieces]
  simp

/-! ## Texts one after the other -/

/-- A text in which the last line is ended, or which has no line. -/
def EndsLine (s : List Char) : Prop := s = [] ∨ s.getLast? = some '\n'

variable {s : List Char}

theorem EndsLine.eq_nil_or_append (h : EndsLine s) : s = [] ∨ ∃ t, s = t ++ ['\n'] := by
  refine h.imp_right fun hlast => ?_
  rcases List.getLast?_eq_some_iff.mp hlast with ⟨t, ht⟩
  exact ⟨t, ht⟩

theorem splitLines_ne_nil (s : List Char) : splitLines s ≠ [] := by
  rw [splitLines_eq_splitOn]
  exact List.splitOn_ne_nil '\n' s

theorem splitLines_append_lineFeed (s t : List Char) :
    splitLines (s ++ '\n' :: t) = splitLines s ++ splitLines t := by
  rw [splitLines_eq_splitOn, splitLines_eq_splitOn, splitLines_eq_splitOn]
  exact List.splitOn_append_cons_self s t

theorem lines_append_lineFeed (s t : List Char) :
    lines (s ++ '\n' :: t) = splitLines s ++ lines t := by
  have hne := splitLines_ne_nil t
  have hlast : (splitLines s ++ splitLines t).getLast? = (splitLines t).getLast? := by
    rw [List.getLast?_append_of_ne_nil _ hne]
  rw [lines, lines, splitLines_append_lineFeed, hlast]
  split
  · rw [List.dropLast_append_of_ne_nil hne]
  · rfl

/-- The lines of a text that ends a line come first, then those of what follows. -/
theorem lines_append (h : EndsLine s) (t : List Char) : lines (s ++ t) = lines s ++ lines t := by
  rcases h.eq_nil_or_append with rfl | ⟨s, rfl⟩
  · rfl
  · have hwhole : lines (s ++ ['\n']) = splitLines s := by
      rw [lines_append_lineFeed]
      exact List.append_nil _
    rw [List.append_assoc, List.singleton_append, lines_append_lineFeed, hwhole]

theorem length_splitLines (s : List Char) : (splitLines s).length = s.count '\n' + 1 := by
  induction s with
  | nil =>
      rfl
  | cons c s ih =>
      rw [splitLines]
      cases hpieces : splitLines s with
      | nil =>
          exact absurd hpieces (splitLines_ne_nil s)
      | cons first rest =>
          rw [hpieces] at ih
          by_cases hc : c = '\n' <;> simp_all

/-- A text that ends a line has as many lines as line feeds. -/
theorem length_lines (h : EndsLine s) : (lines s).length = s.count '\n' := by
  rcases h.eq_nil_or_append with rfl | ⟨s, rfl⟩
  · rfl
  · rw [lines_append_lineFeed, List.length_append, length_splitLines, List.count_append]
    rfl

end Text
end FormatCheck
