import FormatCheck.Proofs.Outcome
import FormatCheck.Template

/-!
# Scanning templates without counting steps

The scanner counts down steps, as many as the text has characters. Every segment takes at least one
character, so the count never runs out: `scanAll` is the scanner, and its equations
`scanAll_of_ok` and `scanAll_of_error` say what it does in terms of the first segment alone.
-/

namespace FormatCheck

/-- The field that a segment is. -/
def Segment.field? : Segment → Option Field
  | literal _ => none
  | field f => some f

namespace Template

variable {s rest : List Char}

/-! ## Every segment takes a character -/

theorem length_lt_of_takeName {bracketed : Bool} {e : NameEnd}
    (h : takeName bracketed s = .ok e) : e.rest.length < s.length := by
  induction s generalizing bracketed e with
  | nil =>
      cases h
  | cons c s ih =>
      -- A character of the name, inside brackets or outside.
      have hmore {bracketed : Bool}
          (hmap : (takeName bracketed s).map (fun e => { e with name := c :: e.name }) = .ok e) :
          e.rest.length < (c :: s).length := by
        rcases exists_of_map_eq_ok hmap with ⟨e', hname, rfl⟩
        have hlt := ih hname
        exact Nat.lt_succ_of_lt hlt
      unfold takeName at h
      split at h
      · exact hmore h
      · split at h
        · cases h
        · split at h
          · cases h
            exact Nat.lt_succ_self _
          · exact hmore h

theorem length_lt_of_takeSpec {depth : Nat} {spec : List Char}
    (h : takeSpec depth s = .ok (spec, rest)) : rest.length < s.length := by
  induction s generalizing depth spec with
  | nil =>
      cases h
  | cons c s ih =>
      unfold takeSpec at h
      split at h
      · cases h
        exact Nat.lt_succ_self _
      · rcases exists_of_map_eq_ok h with ⟨⟨spec', rest'⟩, hspec, heq⟩
        cases heq
        exact Nat.lt_succ_of_lt (ih hspec)

theorem length_lt_of_takeFieldSpec {name : List Char} {conversion : Option Char} {field : Field}
    (h : takeFieldSpec name conversion s = .ok (field, rest)) : rest.length < s.length := by
  rcases exists_of_map_eq_ok h with ⟨⟨spec, rest'⟩, hspec, heq⟩
  cases heq
  exact length_lt_of_takeSpec hspec

theorem length_lt_of_takeConversion {name : List Char} {field : Field}
    (h : takeConversion name s = .ok (field, rest)) : rest.length < s.length := by
  unfold takeConversion at h
  split at h
  · cases h
  · cases h
    exact Nat.lt_succ_of_lt (Nat.lt_succ_self _)
  · have hlt := length_lt_of_takeFieldSpec h
    exact Nat.lt_succ_of_lt (Nat.lt_succ_of_lt hlt)
  · cases h
  · cases h

theorem length_lt_of_takeField {field : Field} (h : takeField s = .ok (field, rest)) :
    rest.length < s.length := by
  rcases exists_of_bind_eq_ok h with ⟨e, hname, hfield⟩
  have hlt := length_lt_of_takeName hname
  split at hfield
  · cases hfield
    exact hlt
  · split at hfield
    · exact Nat.lt_trans (length_lt_of_takeFieldSpec hfield) hlt
    · exact Nat.lt_trans (length_lt_of_takeConversion hfield) hlt

theorem length_lt_of_nextSegment {segment : Segment} (hs : s ≠ [])
    (h : nextSegment s = .ok (segment, rest)) : rest.length < s.length := by
  have hlength : (s.takeWhile fun c => !isBrace c).length + (s.dropWhile fun c => !isBrace c).length
      = s.length := by
    rw [← List.length_append, List.takeWhile_append_dropWhile]
  have hpos : 0 < s.length := List.length_pos_iff.mpr hs
  unfold nextSegment at h
  split at h
  · cases h
    exact hpos
  · next hdrop =>
    cases h
    simp only [hdrop, List.length_cons] at hlength
    omega
  · next hdrop =>
    cases h
    simp only [hdrop, List.length_cons] at hlength
    omega
  · cases h
  · next hdrop =>
    simp only [hdrop, List.length_cons] at hlength
    dsimp only at h
    split at h
    · -- A field takes its opening brace at least.
      rcases exists_of_map_eq_ok h with ⟨⟨field, rest'⟩, hfield, heq⟩
      cases heq
      have hlt := length_lt_of_takeField hfield
      show rest'.length < s.length
      omega
    · next hplain =>
      -- The literal before a field is not empty; the brace stays.
      cases h
      have hplain := List.length_pos_iff.mpr hplain
      simp only [List.length_cons]
      omega
  · cases h

/-! ## The count of steps -/

/-- What one more step does to a text that is not used up. -/
theorem scanWith_succ {steps : Nat} (hs : s ≠ []) :
    scanWith (steps + 1) s =
      match nextSegment s with
      | .error e => ([], some e)
      | .ok (segment, rest) => (segment :: (scanWith steps rest).1, (scanWith steps rest).2) := by
  cases s with
  | nil => exact absurd rfl hs
  | cons c s =>
      cases h : nextSegment (c :: s) with
      | error e => simp [scanWith, h]
      | ok next => simp [scanWith, h]

/-- As many steps as there are characters are enough, and more change nothing. -/
theorem scanWith_eq_of_le {steps : Nat} (h : s.length ≤ steps) :
    scanWith steps s = scanWith s.length s := by
  induction steps using Nat.strongRecOn generalizing s with
  | _ steps ih =>
      cases s with
      | nil =>
          cases steps <;> rfl
      | cons c s =>
          have hs : c :: s ≠ [] := List.cons_ne_nil c s
          cases steps with
          | zero => simp at h
          | succ steps =>
              rw [List.length_cons, scanWith_succ hs, scanWith_succ hs]
              cases hnext : nextSegment (c :: s) with
              | error e => rfl
              | ok next =>
                  rcases next with ⟨segment, rest⟩
                  -- Both counts still cover the rest, which is shorter.
                  have hlt : rest.length < (c :: s).length := length_lt_of_nextSegment hs hnext
                  have hrest : rest.length ≤ s.length := Nat.le_of_lt_succ hlt
                  have hs' : s.length ≤ steps := Nat.le_of_succ_le_succ h
                  have hleft : scanWith steps rest = scanWith rest.length rest :=
                    ih steps (Nat.lt_succ_self _) (Nat.le_trans hrest hs')
                  have hright : scanWith s.length rest = scanWith rest.length rest :=
                    ih s.length (Nat.lt_succ_of_le hs') hrest
                  simp only [hleft, hright]

/-- The segments of a text and the defect that ended the scan. -/
def scanAll (s : List Char) : List Segment × Option FormatError := scanWith s.length s

theorem scan_ofList (s : List Char) : scan (String.ofList s) = scanAll s := by
  simp [scan, scanAll]

@[simp] theorem scanAll_nil : scanAll [] = ([], none) := rfl

theorem scanAll_of_ok {segment : Segment} (hs : s ≠ [])
    (h : nextSegment s = .ok (segment, rest)) :
    scanAll s = (segment :: (scanAll rest).1, (scanAll rest).2) := by
  cases hn : s.length with
  | zero => exact absurd (List.length_eq_zero_iff.mp hn) hs
  | succ n =>
      have hlt : rest.length < n + 1 := hn ▸ length_lt_of_nextSegment hs h
      have hrest : scanWith n rest = scanAll rest := scanWith_eq_of_le (Nat.le_of_lt_succ hlt)
      rw [scanAll, hn, scanWith_succ hs, h]
      simp only [hrest]

theorem scanAll_of_error {e : FormatError} (hs : s ≠ []) (h : nextSegment s = .error e) :
    scanAll s = ([], some e) := by
  cases hn : s.length with
  | zero => exact absurd (List.length_eq_zero_iff.mp hn) hs
  | succ n => rw [scanAll, hn, scanWith_succ hs, h]

/-! ## The fields of a template -/

/-- The fields of a template, up to the defect that ends its scan. -/
def fields (template : String) : List Field := (scan template).1.filterMap Segment.field?

theorem mem_fields {template : String} {field : Field} :
    field ∈ fields template ↔ .field field ∈ (scan template).1 := by
  rw [fields, List.mem_filterMap]
  constructor
  · rintro ⟨segment, hsegment, hfield⟩
    cases segment with
    | literal text => cases hfield
    | field f =>
        cases hfield
        exact hsegment
  · intro h
    exact ⟨.field field, h, rfl⟩

end Template
end FormatCheck
