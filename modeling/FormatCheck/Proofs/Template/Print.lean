import FormatCheck.Proofs.Template.Merge
import FormatCheck.Proofs.Template.Scan

/-!
# Templates scanned back

A template is printed piece by piece, and the braces of adjacent pieces touch. The scanner pairs
braces from left to right and still finds the pieces again: `Yields` says what a text is scanned to,
up to the cuts in its literal text, and each step lemma puts one more character or one more field in
front of a text that is scanned already.
-/

namespace FormatCheck
namespace Template

/-! ## Pieces -/

/-- The characters that mean something in a field name. -/
def nameMarks : List Char := ['{', '}', '!', ':', '[']

/-- A field whose texts can be written as they are. -/
structure PlainField where
  name : String
  conversion : Option Char
  /-- The text after the colon, where a colon is written. -/
  spec? : Option String
  name_plain : ∀ c ∈ name.toList, c ∉ nameMarks
  spec_plain : ∀ spec ∈ spec?, ∀ c ∈ spec.toList, isBrace c = false

namespace PlainField

def toField (f : PlainField) : Field := ⟨f.name, f.conversion, f.spec?.getD "", false⟩

/-- The specifier with its colon, and the closing brace. -/
def specText (f : PlainField) : List Char :=
  ((f.spec?.map fun spec => ':' :: spec.toList).getD []) ++ ['}']

/-- What follows the name of the field. -/
def afterName (f : PlainField) : List Char :=
  ((f.conversion.map fun c => ['!', c]).getD []) ++ f.specText

def text (f : PlainField) : List Char := '{' :: (f.name.toList ++ f.afterName)

end PlainField

/-- What a template is made of: literal text, which may hold anything, and fields. -/
inductive Piece where
  | literal (text : String)
  | field (f : PlainField)

def Piece.segment : Piece → Segment
  | literal text => .literal text
  | field f => .field f.toField

def Piece.text : Piece → List Char
  | literal text => doubleBraces text.toList
  | field f => f.text

/-- The template that consists of the pieces. -/
def print (pieces : List Piece) : String := String.ofList (pieces.flatMap Piece.text)

/-! ## Fields -/

variable {rest : List Char}

theorem takeName_append {name : List Char} (hname : ∀ c ∈ name, c ∉ nameMarks) (stop : Char)
    (hstop : stop = '}' ∨ stop = ':' ∨ stop = '!') (rest : List Char) :
    takeName false (name ++ stop :: rest) = .ok ⟨name, stop, rest⟩ := by
  induction name with
  | nil =>
      rcases hstop with rfl | rfl | rfl <;> rfl
  | cons c name ih =>
      have hc : c ∉ nameMarks := hname c List.mem_cons_self
      have hrest := ih fun d hd => hname d (List.mem_cons_of_mem c hd)
      simp only [nameMarks, List.mem_cons, List.not_mem_nil, or_false, not_or] at hc
      simp [takeName, hc, hrest, Except.map]

theorem takeSpec_append {spec : List Char} (hspec : ∀ c ∈ spec, isBrace c = false)
    (rest : List Char) : takeSpec 1 (spec ++ '}' :: rest) = .ok (spec, rest) := by
  induction spec with
  | nil =>
      rfl
  | cons c spec ih =>
      have hc : isBrace c = false := hspec c List.mem_cons_self
      have hrest := ih fun d hd => hspec d (List.mem_cons_of_mem c hd)
      simp only [isBrace, Bool.or_eq_false_iff, decide_eq_false_iff_not] at hc
      simp [takeSpec, hc, hrest, Except.map]

namespace PlainField

variable (f : PlainField)

theorem takeFieldSpec_eq {spec : String} (h : f.spec? = some spec) (rest : List Char) :
    takeFieldSpec f.name.toList f.conversion (spec.toList ++ '}' :: rest) =
      .ok (f.toField, rest) := by
  have hspec : ∀ c ∈ spec.toList, isBrace c = false := f.spec_plain spec h
  have hnested : '{' ∉ spec.toList := by
    intro hmem
    exact absurd (hspec '{' hmem) (by decide)
  simp [takeFieldSpec, takeSpec_append hspec, Except.map, toField, h, hnested]

/-- A field is taken from the front of any text that begins with it. -/
theorem takeField_eq (rest : List Char) :
    takeField (f.name.toList ++ f.afterName ++ rest) = .ok (f.toField, rest) := by
  -- The name ends at the mark that comes next: a brace, a colon or an exclamation mark.
  cases hc : f.conversion with
  | none =>
      cases hspec : f.spec? with
      | none =>
          have hname := takeName_append f.name_plain '}' (by simp) rest
          simp [takeField, afterName, specText, hc, hspec, hname, toField, bind, Except.bind]
      | some spec =>
          have hname := takeName_append f.name_plain ':' (by simp)
            (spec.toList ++ '}' :: rest)
          have hfield := f.takeFieldSpec_eq hspec rest
          simp_all [takeField, afterName, specText, bind, Except.bind]
  | some c =>
      cases hspec : f.spec? with
      | none =>
          have hname := takeName_append f.name_plain '!' (by simp) (c :: '}' :: rest)
          simp [takeField, afterName, specText, hc, hspec, hname, toField, takeConversion, bind,
            Except.bind]
      | some spec =>
          have hname := takeName_append f.name_plain '!' (by simp)
            (c :: ':' :: (spec.toList ++ '}' :: rest))
          have hfield := f.takeFieldSpec_eq hspec rest
          simp_all [takeField, afterName, specText, takeConversion, bind, Except.bind]

theorem nextSegment_text (rest : List Char) :
    nextSegment (f.text ++ rest) = .ok (.field f.toField, rest) := by
  have hfield := f.takeField_eq rest
  -- What follows the opening brace can be taken as a field, so it is neither another brace nor
  -- the end of the text.
  have hhead : ∀ s, f.name.toList ++ f.afterName ++ rest ≠ '{' :: s := by
    intro s h
    rw [h] at hfield
    cases hfield
  have hne : f.name.toList ++ f.afterName ++ rest ≠ [] := by
    intro h
    rw [h] at hfield
    cases hfield
  simp only [text, List.cons_append]
  generalize f.name.toList ++ f.afterName ++ rest = t at hfield hhead hne
  match t with
  | [] => exact absurd rfl hne
  | c :: t => simp [nextSegment, isBrace, hfield, Except.map]

/-- A field alone is one segment. -/
theorem scan_text : scan (String.ofList f.text) = ([.field f.toField], none) := by
  have hnext : nextSegment f.text = .ok (.field f.toField, []) := by
    simpa using f.nextSegment_text []
  have hne : f.text ≠ [] := List.cons_ne_nil _ _
  rw [scan_ofList, scanAll_of_ok hne hnext, scanAll_nil]

end PlainField

/-! ## What a text is scanned to -/

/-- The text is scanned without a defect, to the given segments once literals are merged. -/
def Yields (s : List Char) (segments : List Segment) : Prop :=
  (scanAll s).2 = none ∧ mergeLiterals (scanAll s).1 = segments

variable {s : List Char} {segments : List Segment}

theorem yields_nil : Yields [] [] := ⟨rfl, rfl⟩

theorem Yields.cons_literal {text : String} (hs : s ≠ [])
    (h : nextSegment s = .ok (.literal text, rest)) (hrest : Yields rest segments) :
    Yields s (consLiteral text segments) := by
  rcases hrest with ⟨hfailure, rfl⟩
  have hscan := scanAll_of_ok hs h
  exact ⟨by rw [hscan, hfailure], by rw [hscan, mergeLiterals]⟩

theorem Yields.cons_field {f : Field} (hs : s ≠ []) (h : nextSegment s = .ok (.field f, rest))
    (hrest : Yields rest segments) : Yields s (.field f :: segments) := by
  rcases hrest with ⟨hfailure, rfl⟩
  have hscan := scanAll_of_ok hs h
  exact ⟨by rw [hscan, hfailure], by rw [hscan, mergeLiterals]⟩

/-- A text that is scanned without a defect has a first segment. -/
theorem Yields.exists_nextSegment (hs : s ≠ []) (h : Yields s segments) :
    ∃ segment rest, nextSegment s = .ok (segment, rest) ∧ Yields rest (mergeLiterals (scanAll rest).1) ∧
      segments = mergeLiterals (segment :: (scanAll rest).1) := by
  rcases h with ⟨hfailure, rfl⟩
  cases hnext : nextSegment s with
  | error e =>
      rw [scanAll_of_error hs hnext] at hfailure
      cases hfailure
  | ok next =>
      rcases next with ⟨segment, rest⟩
      rw [scanAll_of_ok hs hnext] at hfailure ⊢
      exact ⟨segment, rest, rfl, ⟨hfailure, rfl⟩, rfl⟩

/-- A plain character joins the literal that the text begins with; before a field it is a literal of
its own. -/
theorem nextSegment_cons {c : Char} (hc : isBrace c = false) {segment : Segment}
    (h : nextSegment s = .ok (segment, rest)) :
    (∃ text, segment = .literal text ∧
        nextSegment (c :: s) = .ok (.literal (String.singleton c ++ text), rest)) ∨
      nextSegment (c :: s) = .ok (.literal (String.singleton c), s) := by
  have hsplit : (s.takeWhile fun c => !isBrace c) ++ (s.dropWhile fun c => !isBrace c) = s :=
    List.takeWhile_append_dropWhile
  unfold nextSegment at h ⊢
  simp only [List.takeWhile_cons, List.dropWhile_cons, hc, Bool.not_false, if_true]
  split at h
  · next hdrop =>
    cases h
    exact Or.inl ⟨_, rfl, by simp [String.ofList_cons]⟩
  · next hdrop =>
    cases h
    exact Or.inl ⟨_, rfl, by simp [String.ofList_cons]⟩
  · next hdrop =>
    cases h
    exact Or.inl ⟨_, rfl, by simp [String.ofList_cons]⟩
  · cases h
  · next rest' _ _ hdrop =>
    dsimp only at h
    split at h
    · next hplain =>
      -- The text begins with the field, so the character is cut off before it.
      have hs : s = '{' :: rest' := by simpa [hplain, hdrop] using hsplit.symm
      refine Or.inr ?_
      simp [hplain, String.ofList_cons, ← hs]
    · cases h
      exact Or.inl ⟨_, rfl, by simp [String.ofList_cons]⟩
  · cases h

theorem yields_cons {c : Char} (hc : isBrace c = false) (h : Yields s segments) :
    Yields (c :: s) (consLiteral (String.singleton c) segments) := by
  have hne : c :: s ≠ [] := List.cons_ne_nil c s
  by_cases hs : s = []
  · subst hs
    rcases h with ⟨_, rfl⟩
    have hnext : nextSegment [c] = .ok (.literal (String.singleton c), []) := by
      simp [nextSegment, hc]
    exact yields_nil.cons_literal hne hnext
  · -- The first segment of the text takes the character in, or leaves it a segment of its own.
    rcases h.exists_nextSegment hs with ⟨segment, rest, hnext, hrest, hsegments⟩
    rcases nextSegment_cons hc hnext with ⟨text, rfl, hcons⟩ | hcons
    · rw [hsegments, mergeLiterals, consLiteral_consLiteral]
      exact hrest.cons_literal hne hcons
    · exact h.cons_literal hne hcons

/-- A doubled brace is one brace, whatever follows it. -/
theorem yields_doubled {c : Char} (hc : isBrace c = true) (h : Yields s segments) :
    Yields (c :: c :: s) (consLiteral (String.singleton c) segments) := by
  have hnext : nextSegment (c :: c :: s) = .ok (.literal (String.singleton c), s) := by
    simp only [isBrace, Bool.or_eq_true, decide_eq_true_eq] at hc
    rcases hc with rfl | rfl
    · simp [nextSegment, isBrace]
    · simp [nextSegment, isBrace]
  exact h.cons_literal (List.cons_ne_nil c _) hnext

theorem yields_doubleBraces (text : List Char) (h : Yields s segments) :
    Yields (doubleBraces text ++ s) (consLiteral (String.ofList text) segments) := by
  -- Each character of the literal, doubled if it is a brace, comes before a text that is scanned
  -- already.
  induction text with
  | nil =>
      simpa [doubleBraces] using h
  | cons c text ih =>
      have hjoin : String.ofList (c :: text) = String.singleton c ++ String.ofList text := by
        rw [String.singleton_eq_ofList, ← String.ofList_append]
        rfl
      rw [hjoin, ← consLiteral_consLiteral]
      cases hc : isBrace c with
      | true =>
          simpa [doubleBraces, hc] using yields_doubled hc ih
      | false =>
          simpa [doubleBraces, hc] using yields_cons hc ih

theorem yields_field (f : PlainField) (h : Yields s segments) :
    Yields (f.text ++ s) (.field f.toField :: segments) :=
  h.cons_field (by simp [PlainField.text]) (f.nextSegment_text s)

/-- The pieces are found again, from the last to the first. -/
theorem yields_pieces (pieces : List Piece) :
    Yields (pieces.flatMap Piece.text) (mergeLiterals (pieces.map Piece.segment)) := by
  induction pieces with
  | nil =>
      exact yields_nil
  | cons piece pieces ih =>
      cases piece with
      | literal text =>
          simpa [Piece.text, Piece.segment, mergeLiterals] using yields_doubleBraces text.toList ih
      | field f =>
          simpa [Piece.text, Piece.segment, mergeLiterals] using yields_field f ih

/-! ## Templates -/

/-- A text with its braces doubled renders as the text. -/
theorem render_doubleBraces (s : String) (args : List Value) :
    Render.render (String.ofList (doubleBraces s.toList)) args = .ok s := by
  have hyields : Yields (doubleBraces s.toList) (consLiteral s []) := by
    simpa using yields_doubleBraces s.toList yields_nil
  rcases hyields with ⟨hfailure, hmerged⟩
  rw [Render.render, scan_ofList]
  calc
    Render.renderSegments args (scanAll (doubleBraces s.toList)).2 .undecided
        (scanAll (doubleBraces s.toList)).1
        = Render.renderSegments args none .undecided (consLiteral s []) := by
          rw [hfailure, ← hmerged, Render.renderSegments_mergeLiterals]
    _ = .ok s := by
          rw [Render.renderSegments_consLiteral]
          simp [Render.renderSegments, Except.map]

/-- The scanner inverts printing: a template made of pieces is scanned without a defect to exactly
those pieces, up to cuts in its literal text, and no field of it counts as nested. So a text with
its braces doubled renders as itself. -/
theorem scan_print :
    (∀ pieces : List Piece,
      (scan (print pieces)).2 = none ∧
        mergeLiterals (scan (print pieces)).1 = mergeLiterals (pieces.map Piece.segment) ∧
        ∀ field, .field field ∈ (scan (print pieces)).1 → field.nested = false) ∧
    ∀ (s : String) (args : List Value),
      Render.render (String.ofList (doubleBraces s.toList)) args = .ok s := by
  refine ⟨?_, render_doubleBraces⟩
  intro pieces
  rw [print, scan_ofList]
  rcases yields_pieces pieces with ⟨hfailure, hmerged⟩
  refine ⟨hfailure, hmerged, ?_⟩
  intro field hfield
  -- Merging keeps the fields, so every field of the scan is the field of a piece.
  have hmem : .field field ∈ pieces.map Piece.segment := by
    rw [← mem_mergeLiterals_field, ← hmerged, mem_mergeLiterals_field]
    exact hfield
  rcases List.mem_map.mp hmem with ⟨piece, _, hpiece⟩
  cases piece with
  | literal text => cases hpiece
  | field f =>
      cases hpiece
      rfl

/-- Braces of three pieces side by side: a literal brace, a field whose conversion is a brace and
whose colon has nothing after it, and a literal brace. -/
def touchingPieces : List Piece :=
  [.literal "\x7b", .field ⟨"", some '}', some "", by simp, by simp⟩, .literal "\x7d"]

theorem scan_print_touchingPieces :
    print touchingPieces = "\x7b\x7b\x7b!\x7d:\x7d\x7d\x7d" ∧
      (scan (print touchingPieces)).2 = none ∧
      mergeLiterals (scan (print touchingPieces)).1 =
        [.literal "\x7b", .field ⟨"", some '}', "", false⟩, .literal "\x7d"] := by
  have hprint : print touchingPieces = "\x7b\x7b\x7b!\x7d:\x7d\x7d\x7d" := by decide +kernel
  have hpieces : mergeLiterals (touchingPieces.map Piece.segment) =
      [.literal "\x7b", .field ⟨"", some '}', "", false⟩, .literal "\x7d"] := by decide +kernel
  rcases scan_print.1 touchingPieces with ⟨hfailure, hmerged, _⟩
  exact ⟨hprint, hfailure, hmerged.trans hpieces⟩

end Template
end FormatCheck
