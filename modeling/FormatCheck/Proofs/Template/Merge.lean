import FormatCheck.Render

/-!
# Literals merged

A scan cuts literal text wherever a brace was doubled. `mergeLiterals` undoes the cuts: adjacent
literals become one and empty ones disappear. It forgets nothing that a rendering can tell, which is
`renderSegments_mergeLiterals`.
-/

namespace FormatCheck
namespace Template

/-- Literal text before segments, made one with a literal at their front. -/
def consLiteral (text : String) : List Segment → List Segment
  | .literal first :: segments => .literal (text ++ first) :: segments
  | segments => if text = "" then segments else .literal text :: segments

/-- Segments with adjacent literals merged and empty ones dropped. -/
def mergeLiterals : List Segment → List Segment
  | [] => []
  | .literal text :: segments => consLiteral text (mergeLiterals segments)
  | .field field :: segments => .field field :: mergeLiterals segments

variable {segments : List Segment}

@[simp] theorem consLiteral_empty (segments : List Segment) : consLiteral "" segments = segments := by
  match segments with
  | [] => rfl
  | .literal first :: segments => simp [consLiteral]
  | .field field :: segments => rfl

/-- Text before text before segments is their concatenation before them. -/
theorem consLiteral_consLiteral (s t : String) (segments : List Segment) :
    consLiteral s (consLiteral t segments) = consLiteral (s ++ t) segments := by
  match segments with
  | .literal first :: segments =>
      simp [consLiteral, String.append_assoc]
  | [] =>
      by_cases ht : t = ""
      · simp [ht]
      · simp [consLiteral, ht]
  | .field field :: segments =>
      by_cases ht : t = ""
      · simp [ht]
      · simp [consLiteral, ht]

/-- The fields of the segments are kept. -/
theorem mem_consLiteral_field {field : Field} (text : String) :
    .field field ∈ consLiteral text segments ↔ .field field ∈ segments := by
  match segments with
  | .literal first :: segments =>
      simp [consLiteral]
  | [] =>
      by_cases h : text = ""
      · simp [h]
      · simp [consLiteral, h]
  | .field f :: segments =>
      by_cases h : text = ""
      · simp [h]
      · simp [consLiteral, h]

theorem mem_mergeLiterals_field {field : Field} :
    .field field ∈ mergeLiterals segments ↔ .field field ∈ segments := by
  induction segments with
  | nil =>
      rfl
  | cons segment segments ih =>
      cases segment with
      | literal text => simp [mergeLiterals, mem_consLiteral_field, ih]
      | field f => simp [mergeLiterals, ih]

end Template

namespace Render

open Template (consLiteral mergeLiterals)

variable (args : List Value) (failure : Option FormatError)

theorem renderSegments_literal (text : String) (numbering : Numbering) (segments : List Segment) :
    renderSegments args failure numbering (.literal text :: segments) =
      (renderSegments args failure numbering segments).map (text ++ ·) := by
  rw [renderSegments]
  cases renderSegments args failure numbering segments <;> rfl

/-- Literal text before segments comes first in their rendering. -/
theorem renderSegments_consLiteral (text : String) (numbering : Numbering)
    (segments : List Segment) :
    renderSegments args failure numbering (consLiteral text segments) =
      (renderSegments args failure numbering segments).map (text ++ ·) := by
  -- Empty text is dropped, and it adds nothing to a rendering.
  by_cases h : text = ""
  · cases hr : renderSegments args failure numbering segments <;> simp [h, hr, Except.map]
  · match segments with
    | .literal first :: segments =>
        rw [consLiteral, renderSegments_literal, renderSegments_literal]
        cases renderSegments args failure numbering segments with
        | error e => rfl
        | ok rest => simp [Except.map, String.append_assoc]
    | [] =>
        simp only [consLiteral, h, if_false, renderSegments_literal]
    | .field field :: segments =>
        simp only [consLiteral, h, if_false, renderSegments_literal]

/-- Merging literals changes no rendering. -/
theorem renderSegments_mergeLiterals (numbering : Numbering) (segments : List Segment) :
    renderSegments args failure numbering (mergeLiterals segments) =
      renderSegments args failure numbering segments := by
  induction segments generalizing numbering with
  | nil =>
      rfl
  | cons segment segments ih =>
      cases segment with
      | literal text =>
          rw [mergeLiterals, renderSegments_consLiteral, ih, renderSegments_literal]
      | field field =>
          simp only [mergeLiterals, renderSegments, ih]

end Render
end FormatCheck
