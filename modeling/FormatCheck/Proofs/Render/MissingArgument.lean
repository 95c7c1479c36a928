import FormatCheck.Proofs.Spec.Defect
import FormatCheck.Proofs.Template.Scan
import FormatCheck.Render
import Mathlib.Tactic.SplitIfs

/-!
# Missing arguments

A position without an argument is reported in one place, where a field looks its argument up. No
other part of the engine makes that report: not the scanner, nor the reader of specifiers, nor the
renderers. So the position in a report is that of a field, and `FormatError.shiftIndex` moves it
where fields are counted from another start without touching any other rejection.
-/

namespace FormatCheck

/-- The rejection with the position of a missing argument moved up. -/
def FormatError.shiftIndex (count : Nat) : FormatError → FormatError
  | .indexOutOfRange index => .indexOutOfRange (index + count)
  | e => e

/-- The outcome is no report of a missing argument. -/
def NeverMissing {α : Type} (x : Except FormatError α) : Prop :=
  ∀ index, x ≠ .error (.indexOutOfRange index)

namespace NeverMissing

variable {α β : Type} {x : Except FormatError α}

theorem ok (a : α) : NeverMissing (.ok a) := by
  intro index h
  cases h

theorem error {e : FormatError} (he : ∀ index, e ≠ .indexOutOfRange index) :
    NeverMissing (.error e : Except FormatError α) := by
  intro index h
  exact he index (Except.error.inj h)

theorem bind (h : NeverMissing x) {f : α → Except FormatError β} (hf : ∀ a, NeverMissing (f a)) :
    NeverMissing (x >>= f) := by
  cases x with
  | error e =>
      refine error ?_
      rintro index rfl
      exact h index rfl
  | ok a =>
      exact hf a

theorem map (h : NeverMissing x) (f : α → β) : NeverMissing (x.map f) := by
  cases x with
  | error e =>
      refine error ?_
      rintro index rfl
      exact h index rfl
  | ok a =>
      exact ok (f a)

/-- Where no argument is reported missing there is no position to move. -/
theorem mapError_shiftIndex (h : NeverMissing x) (count : Nat) :
    x.mapError (FormatError.shiftIndex count) = x := by
  cases x with
  | ok a =>
      rfl
  | error e =>
      cases e with
      | indexOutOfRange index => exact absurd rfl (h index)
      | _ => rfl

end NeverMissing

/-! ## Rendering a value -/

theorem Spec.neverMissing_parse (typeName text : String) : NeverMissing (parse typeName text) := by
  intro index h
  rcases Cut.parse_eq_error_iff.mp h with ⟨cut, _, _, hdefect⟩
  cases hdefect

theorem Spec.neverMissing_checkGrouping (spec : Spec) (code : Option Char) :
    NeverMissing (spec.checkGrouping code) := by
  unfold checkGrouping
  split
  · split_ifs
    · exact .ok ()
    · exact .error (by simp)
  · exact .ok ()

namespace Render

theorem neverMissing_formatInteger (z : Int) (spec : Spec) (kind : ValueKind) :
    NeverMissing (formatInteger z spec kind) := by
  refine (spec.neverMissing_checkGrouping _).bind ?_
  intro _
  unfold formatCodePoint
  split_ifs
  · exact .ok _
  · exact .error (by simp)
  · exact .error (by simp)
  · exact .error (by simp)
  · split
    · exact .error (by simp)
    · exact .ok _
  · exact .ok _
  · exact .error (by simp)

theorem neverMissing_formatFloat (x : Binary64) (spec : Spec) :
    NeverMissing (formatFloat x spec) := by
  refine (spec.neverMissing_checkGrouping _).bind ?_
  intro _
  split
  · exact .ok _
  · split_ifs
    · exact .ok _
    · exact .error (by simp)

theorem neverMissing_formatText (s : List Char) (spec : Spec) :
    NeverMissing (formatText s spec) := by
  refine (spec.neverMissing_checkGrouping _).bind ?_
  intro _
  dsimp only
  split_ifs
  · exact .error (by simp)
  · exact .error (by simp)
  · exact .error (by simp)
  · exact .error (by simp)
  · exact .error (by simp)
  · exact .ok _

theorem neverMissing_formatWith (v : Value) (spec : Spec) : NeverMissing (formatWith v spec) := by
  cases v with
  | bool b => exact neverMissing_formatInteger _ spec _
  | int i => exact neverMissing_formatInteger _ spec _
  | uint n => exact neverMissing_formatInteger _ spec _
  | float x => exact neverMissing_formatFloat x spec
  | str s => exact neverMissing_formatText _ spec

theorem neverMissing_formatValue (v : Value) (text : String) :
    NeverMissing (formatValue v text) := by
  unfold formatValue
  split_ifs
  · exact .ok _
  · refine (Spec.neverMissing_parse _ text).bind ?_
    intro spec
    refine (neverMissing_formatWith v spec).bind ?_
    intro _
    exact .ok _

theorem neverMissing_renderField (field : Field) (v : Value) :
    NeverMissing (renderField field v) := by
  have hconverted : NeverMissing (convertField v field) := by
    unfold convertField convert
    split
    · exact .ok _
    · split_ifs
      · exact .ok _
      · exact .ok _
      · exact .ok _
      · exact .error (by simp)
  refine hconverted.bind ?_
  intro v'
  split_ifs
  · exact .error (by simp)
  · exact neverMissing_formatValue v' field.spec

end Render

/-! ## Scanning -/

namespace Template

theorem neverMissing_takeName (bracketed : Bool) (s : List Char) :
    NeverMissing (takeName bracketed s) := by
  induction s generalizing bracketed with
  | nil =>
      exact .error (by simp)
  | cons c s ih =>
      unfold takeName
      split_ifs
      · exact (ih _).map _
      · exact .error (by simp)
      · exact .ok _
      · exact (ih _).map _

theorem neverMissing_takeSpec (depth : Nat) (s : List Char) : NeverMissing (takeSpec depth s) := by
  induction s generalizing depth with
  | nil =>
      exact .error (by simp)
  | cons c s ih =>
      unfold takeSpec
      split
      · exact .ok _
      · exact (ih _).map _

theorem neverMissing_takeField (s : List Char) : NeverMissing (takeField s) := by
  have hspec : ∀ name conversion s, NeverMissing (takeFieldSpec name conversion s) :=
    fun _ _ s => (neverMissing_takeSpec 1 s).map _
  refine (neverMissing_takeName false s).bind ?_
  intro e
  split_ifs
  · exact .ok _
  · exact hspec _ _ _
  · unfold takeConversion
    split
    · exact .error (by simp)
    · exact .ok _
    · exact hspec _ _ _
    · exact .error (by simp)
    · exact .error (by simp)

theorem neverMissing_nextSegment (s : List Char) : NeverMissing (nextSegment s) := by
  unfold nextSegment
  split
  · exact .ok _
  · exact .ok _
  · exact .ok _
  · exact .error (by simp)
  · dsimp only
    split_ifs
    · exact (neverMissing_takeField _).map _
    · exact .ok _
  · exact .error (by simp)

/-- The defect that ends a scan is no missing argument. -/
theorem shiftIndex_of_mem_scanAll {s : List Char} {e : FormatError} (h : e ∈ (scanAll s).2)
    (count : Nat) : e.shiftIndex count = e := by
  induction hn : s.length using Nat.strongRecOn generalizing s with
  | _ n ih =>
      by_cases hs : s = []
      · subst hs
        cases h
      · cases hnext : nextSegment s with
        | error e' =>
            rw [scanAll_of_error hs hnext] at h
            cases h
            have hshift := (neverMissing_nextSegment s).mapError_shiftIndex count
            rw [hnext] at hshift
            exact Except.error.inj hshift
        | ok next =>
            rcases next with ⟨segment, rest⟩
            have hlt := length_lt_of_nextSegment hs hnext
            rw [scanAll_of_ok hs hnext] at h
            exact ih rest.length (hn ▸ hlt) h rfl

end Template
end FormatCheck
