import FormatCheck.Proofs.Template.Scan
import FormatCheck.Proofs.Text.Run
import Mathlib.Tactic.SplitIfs

/-!
# Scanning a text with more after it

The scanner decides by what it has read: a field that was taken off the front of a text is taken off
every longer text, and so is a literal that ended at a brace (`nextSegment_extend`). A literal that
ended with the text goes on instead; plain text before a text joins its first literal or becomes a
literal of its own, and hides none of its defects (`nextSegment_plain`).
-/

namespace FormatCheck
namespace Template

variable {s rest : List Char}

/-! ## Fields -/

theorem takeName_extend {bracketed : Bool} {e : NameEnd} (h : takeName bracketed s = .ok e)
    (more : List Char) :
    takeName bracketed (s ++ more) = .ok { e with rest := e.rest ++ more } := by
  induction s generalizing bracketed e with
  | nil =>
      cases h
  | cons c s ih =>
      -- A character of the name, inside brackets or outside.
      have hmore {bracketed : Bool}
          (hmap : (takeName bracketed s).map (fun e => { e with name := c :: e.name }) = .ok e) :
          (takeName bracketed (s ++ more)).map (fun e => { e with name := c :: e.name }) =
            .ok { e with rest := e.rest ++ more } := by
        rcases exists_of_map_eq_ok hmap with ⟨e', hname, rfl⟩
        rw [ih hname]
        rfl
      rw [List.cons_append]
      unfold takeName at h ⊢
      split_ifs at h ⊢
      · exact hmore h
      · cases h
        rfl
      · exact hmore h

theorem takeSpec_extend {depth : Nat} {spec : List Char}
    (h : takeSpec depth s = .ok (spec, rest)) (more : List Char) :
    takeSpec depth (s ++ more) = .ok (spec, rest ++ more) := by
  induction s generalizing depth spec with
  | nil =>
      cases h
  | cons c s ih =>
      rw [List.cons_append]
      unfold takeSpec at h ⊢
      split at h
      · next hend =>
        cases h
        exact if_pos hend
      · next hend =>
        rcases exists_of_map_eq_ok h with ⟨⟨spec', rest'⟩, hspec, heq⟩
        cases heq
        simp only [if_neg hend, ih hspec]
        rfl

variable {name : List Char} {conversion : Option Char} {field : Field}

theorem takeFieldSpec_extend (h : takeFieldSpec name conversion s = .ok (field, rest))
    (more : List Char) :
    takeFieldSpec name conversion (s ++ more) = .ok (field, rest ++ more) := by
  rcases exists_of_map_eq_ok h with ⟨⟨spec, rest'⟩, hspec, heq⟩
  cases heq
  rw [takeFieldSpec, takeSpec_extend hspec]
  rfl

theorem takeConversion_extend (h : takeConversion name s = .ok (field, rest)) (more : List Char) :
    takeConversion name (s ++ more) = .ok (field, rest ++ more) := by
  unfold takeConversion at h
  split at h
  · cases h
  · cases h
    rfl
  · exact takeFieldSpec_extend h more
  · cases h
  · cases h

theorem takeField_extend (h : takeField s = .ok (field, rest)) (more : List Char) :
    takeField (s ++ more) = .ok (field, rest ++ more) := by
  rcases exists_of_bind_eq_ok h with ⟨e, hname, hfield⟩
  rw [takeField, takeName_extend hname]
  simp only [bind, Except.bind]
  split_ifs at hfield ⊢
  · cases hfield
    rfl
  · exact takeFieldSpec_extend hfield more
  · exact takeConversion_extend hfield more

/-! ## Segments -/

/-- The first segment, from the plain text before the first brace and the text from there on. -/
def segmentAt (plain : List Char) : List Char → Except FormatError (Segment × List Char)
  | [] => .ok (.literal (String.ofList plain), [])
  | '}' :: '}' :: rest => .ok (.literal (String.ofList (plain ++ ['}'])), rest)
  | '{' :: '{' :: rest => .ok (.literal (String.ofList (plain ++ ['{'])), rest)
  | ['{'] => .error (.unbalancedBrace '{')
  | '{' :: rest =>
    if plain = [] then (takeField rest).map fun (field, rest) => (.field field, rest)
    else .ok (.literal (String.ofList plain), '{' :: rest)
  | c :: _ => .error (.unbalancedBrace c)

/-- A text up to its first brace. -/
def plainStart (s : List Char) : List Char := s.takeWhile fun c => !isBrace c

/-- A text from its first brace on. -/
def braceStart (s : List Char) : List Char := s.dropWhile fun c => !isBrace c

theorem plainStart_append_braceStart (s : List Char) : plainStart s ++ braceStart s = s :=
  List.takeWhile_append_dropWhile

theorem isBrace_of_mem_plainStart {c : Char} (h : c ∈ plainStart s) : isBrace c = false := by
  have hrun := List.all_takeWhile (p := fun c => !isBrace c) (l := s)
  simpa using List.all_eq_true.mp hrun c h

theorem nextSegment_eq (s : List Char) : nextSegment s = segmentAt (plainStart s) (braceStart s) :=
  rfl

variable {plain : List Char}

/-- Plain text goes on to the first brace of what follows. -/
theorem plainStart_append (hplain : ∀ c ∈ plain, isBrace c = false) (s : List Char) :
    plainStart (plain ++ s) = plain ++ plainStart s :=
  List.takeWhile_append_of_pos fun c hc => by rw [hplain c hc]; rfl

theorem braceStart_append (hplain : ∀ c ∈ plain, isBrace c = false) (s : List Char) :
    braceStart (plain ++ s) = braceStart s :=
  List.dropWhile_append_of_pos fun c hc => by rw [hplain c hc]; rfl

theorem nextSegment_append (hplain : ∀ c ∈ plain, isBrace c = false) (s : List Char) :
    nextSegment (plain ++ s) = segmentAt (plain ++ plainStart s) (braceStart s) := by
  rw [nextSegment_eq, plainStart_append hplain, braceStart_append hplain]

variable {segment : Segment}

theorem segmentAt_field {c : Char} (hc : c ≠ '{') (plain s : List Char) :
    segmentAt plain ('{' :: c :: s) =
      if plain = [] then (takeField (c :: s)).map fun (field, rest) => (.field field, rest)
      else .ok (.literal (String.ofList plain), '{' :: c :: s) := by
  rw [segmentAt]
  · intro rest heq
    exact hc (List.cons.inj heq).1
  · exact List.cons_ne_nil c s

theorem segmentAt_extend (hs : s ≠ []) (h : segmentAt plain s = .ok (segment, rest))
    (more : List Char) : segmentAt plain (s ++ more) = .ok (segment, rest ++ more) := by
  unfold segmentAt at h
  split at h
  · exact absurd rfl hs
  · cases h
    rfl
  · cases h
    rfl
  · cases h
  · next after hdoubled hlast =>
    -- The brace opens a field, and the character after it is there to tell.
    cases after with
    | nil => exact absurd rfl hlast
    | cons c after =>
        have hc : c ≠ '{' := by
          rintro rfl
          exact hdoubled after rfl
        rw [List.cons_append, List.cons_append, segmentAt_field hc]
        split_ifs at h ⊢
        · rcases exists_of_map_eq_ok h with ⟨⟨field, rest'⟩, hfield, heq⟩
          cases heq
          have hmore := takeField_extend hfield more
          rw [List.cons_append] at hmore
          rw [hmore]
          rfl
        · cases h
          rfl
  · cases h

/-- A segment that ended at a brace ends there whatever follows the text. -/
theorem nextSegment_extend (hbrace : braceStart s ≠ [])
    (h : nextSegment s = .ok (segment, rest)) (more : List Char) :
    nextSegment (s ++ more) = .ok (segment, rest ++ more) := by
  have hsplit : s ++ more = plainStart s ++ (braceStart s ++ more) := by
    rw [← List.append_assoc, plainStart_append_braceStart]
  have hstops : Text.Stops (fun c => !isBrace c) (braceStart s ++ more) := by
    refine (Text.stops_dropWhile (fun c => !isBrace c) s).of_head?_eq ?_
    rw [List.head?_append, Option.or_of_isSome (by simpa using hbrace)]
    rfl
  have hrun : ∀ c ∈ plainStart s, (!isBrace c) = true := by
    intro c hc
    rw [isBrace_of_mem_plainStart hc]
    rfl
  rw [hsplit, nextSegment, Text.takeWhile_run hrun hstops, Text.dropWhile_run hrun hstops]
  exact segmentAt_extend hbrace h more

/-- What plain text does to the first segment of what follows: it joins a literal, it is cut off
before a field, and it changes no other defect. -/
theorem nextSegment_plain (hplain : ∀ c ∈ plain, isBrace c = false) (hne : plain ≠ [])
    (s : List Char) :
    (∃ text rest, nextSegment s = .ok (.literal text, rest) ∧
        nextSegment (plain ++ s) = .ok (.literal (String.ofList plain ++ text), rest)) ∨
      nextSegment (plain ++ s) = .ok (.literal (String.ofList plain), s) ∨
      ∃ e, nextSegment s = .error e ∧ nextSegment (plain ++ s) = .error e := by
  have hsplit := plainStart_append_braceStart s
  rw [nextSegment_append hplain, nextSegment_eq]
  generalize plainStart s = before at hsplit ⊢
  generalize braceStart s = after at hsplit ⊢
  unfold segmentAt
  split
  · exact Or.inl ⟨_, _, rfl, by rw [String.ofList_append]⟩
  · exact Or.inl ⟨_, _, rfl, by rw [← String.ofList_append, List.append_assoc]⟩
  · exact Or.inl ⟨_, _, rfl, by rw [← String.ofList_append, List.append_assoc]⟩
  · exact Or.inr (Or.inr ⟨_, rfl, rfl⟩)
  · have hjoined : ¬ plain ++ before = [] := by simp [hne]
    rw [if_neg hjoined]
    split_ifs with hbefore
    · -- The text begins with the field.
      subst hbefore
      rw [List.append_nil, ← hsplit, List.nil_append]
      exact Or.inr (Or.inl rfl)
    · exact Or.inl ⟨_, _, rfl, by rw [String.ofList_append]⟩
  · exact Or.inr (Or.inr ⟨_, rfl, rfl⟩)

end Template
end FormatCheck
