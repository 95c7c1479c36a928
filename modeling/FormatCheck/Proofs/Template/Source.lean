import FormatCheck.Proofs.Template.Append

/-!
# The source of a segment

Every segment is written out in the template. `SourceOf` says how: a literal is its own text, or its
text with its last brace once more; a field stands in braces, with its conversion and its specifier
behind their marks. `exists_source_of_nextSegment` says that this, and nothing else, is what the
scanner takes off a text, and `sourcesOf_of_scanAll` that a text is the sources of its segments.
-/

namespace FormatCheck
namespace Template

variable {s rest spec name : List Char} {conversion : Option Char} {field : Field}

/-! ## Specifiers -/

/-- A text that closes as many braces as it opens and `depth` more, and never closes a brace that
is not open. -/
structure Closes (depth : Nat) (s : List Char) : Prop where
  opened : ∀ before, before <+: s → before.count '}' ≤ before.count '{' + depth
  closed : s.count '}' = s.count '{' + depth

theorem closes_nil : Closes 0 [] where
  opened := by
    intro before hbefore
    rw [List.prefix_nil.mp hbefore]
    exact Nat.le_refl _
  closed := rfl

variable {depth : Nat}

theorem Closes.cons_plain (h : Closes depth s) {c : Char} (hopen : c ≠ '{') (hclose : c ≠ '}') :
    Closes depth (c :: s) where
  opened := by
    intro before hbefore
    rcases List.prefix_cons_iff.mp hbefore with rfl | ⟨before, rfl, htail⟩
    · exact Nat.zero_le _
    · rw [List.count_cons_of_ne hopen, List.count_cons_of_ne hclose]
      exact h.opened before htail
  closed := by
    rw [List.count_cons_of_ne hopen, List.count_cons_of_ne hclose]
    exact h.closed

theorem Closes.cons_open (h : Closes (depth + 1) s) : Closes depth ('{' :: s) where
  opened := by
    intro before hbefore
    rcases List.prefix_cons_iff.mp hbefore with rfl | ⟨before, rfl, htail⟩
    · exact Nat.zero_le _
    · have hle := h.opened before htail
      rw [List.count_cons_self, List.count_cons_of_ne (by decide)]
      omega
  closed := by
    have heq := h.closed
    rw [List.count_cons_self, List.count_cons_of_ne (by decide)]
    omega

theorem Closes.cons_close (h : Closes depth s) : Closes (depth + 1) ('}' :: s) where
  opened := by
    intro before hbefore
    rcases List.prefix_cons_iff.mp hbefore with rfl | ⟨before, rfl, htail⟩
    · exact Nat.zero_le _
    · have hle := h.opened before htail
      rw [List.count_cons_self, List.count_cons_of_ne (by decide)]
      omega
  closed := by
    have heq := h.closed
    rw [List.count_cons_self, List.count_cons_of_ne (by decide)]
    omega

/-- A specifier is followed by its closing brace, and closes all others that are open. -/
theorem closes_of_takeSpec (h : takeSpec (depth + 1) s = .ok (spec, rest)) :
    s = spec ++ '}' :: rest ∧ Closes depth spec := by
  induction s generalizing depth spec with
  | nil =>
      cases h
  | cons c s ih =>
      unfold takeSpec at h
      split at h
      · next hend =>
        cases h
        rcases hend with ⟨rfl, hdepth⟩
        cases Nat.le_zero.mp (Nat.le_of_succ_le_succ hdepth)
        exact ⟨rfl, closes_nil⟩
      · next hmore =>
        rcases exists_of_map_eq_ok h with ⟨⟨spec', rest'⟩, hspec, heq⟩
        cases heq
        by_cases hopen : c = '{'
        · subst hopen
          rcases ih hspec with ⟨rfl, hcloses⟩
          exact ⟨rfl, hcloses.cons_open⟩
        · by_cases hclose : c = '}'
          · subst hclose
            cases depth with
            | zero => exact absurd ⟨rfl, Nat.le_refl 1⟩ hmore
            | succ depth =>
                rcases ih hspec with ⟨rfl, hcloses⟩
                exact ⟨rfl, hcloses.cons_close⟩
          · rw [if_neg hopen, if_neg hclose] at hspec
            rcases ih hspec with ⟨rfl, hcloses⟩
            exact ⟨rfl, hcloses.cons_plain hopen hclose⟩

/-! ## Fields -/

/-- A conversion behind its mark, if there is one. -/
@[simp] def conversionText : Option Char → List Char
  | none => []
  | some c => ['!', c]

/-- What the scanner takes for a segment. -/
inductive SourceOf : Segment → List Char → Prop where
  | literal {text : List Char} :
      text ≠ [] → (∀ c ∈ text, isBrace c = false) →
      SourceOf (.literal (String.ofList text)) text
  /-- A brace that is doubled ends a literal. -/
  | doubled {text : List Char} {brace : Char} :
      (∀ c ∈ text, isBrace c = false) → isBrace brace = true →
      SourceOf (.literal (String.ofList (text ++ [brace]))) (text ++ [brace, brace])
  /-- An empty specifier may be written with its colon and without it. -/
  | field {f : Field} {specText : List Char} :
      specText = ':' :: f.spec.toList ∨ specText = [] ∧ f.spec = "" →
      (f.nested = true ↔ '{' ∈ f.spec.toList) → Closes 0 f.spec.toList →
      SourceOf (.field f)
        ('{' :: (f.name.toList ++ conversionText f.conversion ++ specText ++ ['}']))

theorem append_of_takeName {bracketed : Bool} {e : NameEnd} (h : takeName bracketed s = .ok e) :
    s = e.name ++ e.stop :: e.rest ∧ (e.stop = '}' ∨ e.stop = ':' ∨ e.stop = '!') := by
  induction s generalizing bracketed e with
  | nil =>
      cases h
  | cons c s ih =>
      -- A character of the name, inside brackets or outside.
      have hmore {bracketed : Bool}
          (hmap : (takeName bracketed s).map (fun e => { e with name := c :: e.name }) = .ok e) :
          c :: s = e.name ++ e.stop :: e.rest ∧
            (e.stop = '}' ∨ e.stop = ':' ∨ e.stop = '!') := by
        rcases exists_of_map_eq_ok hmap with ⟨e', hname, rfl⟩
        rcases ih hname with ⟨heq, hstop⟩
        exact ⟨congrArg (c :: ·) heq, hstop⟩
      unfold takeName at h
      split_ifs at h with _ _ hstop
      · exact hmore h
      · cases h
        exact ⟨rfl, hstop⟩
      · exact hmore h

/-- A field without a colon. -/
theorem sourceOf_plain (name : List Char) (conversion : Option Char) :
    SourceOf (.field ⟨String.ofList name, conversion, "", false⟩)
      ('{' :: (name ++ conversionText conversion ++ ['}'])) := by
  have hsource := SourceOf.field (f := ⟨String.ofList name, conversion, "", false⟩)
    (Or.inr ⟨rfl, rfl⟩) (by simp) closes_nil
  simpa using hsource

/-- The source of a field from its colon on. -/
theorem sourceOf_of_takeFieldSpec (h : takeFieldSpec name conversion s = .ok (field, rest)) :
    ∃ spec, s = spec ++ '}' :: rest ∧ SourceOf (.field field)
      ('{' :: (name ++ conversionText conversion ++ ':' :: spec ++ ['}'])) := by
  rcases exists_of_map_eq_ok h with ⟨⟨spec, rest'⟩, hspec, heq⟩
  cases heq
  rcases closes_of_takeSpec hspec with ⟨hsplit, hcloses⟩
  refine ⟨spec, hsplit, ?_⟩
  have hsource := SourceOf.field
    (f := ⟨String.ofList name, conversion, String.ofList spec, '{' ∈ spec⟩)
    (Or.inl rfl) (by simp) (by simpa using hcloses)
  simpa using hsource

theorem exists_source_of_takeField (h : takeField s = .ok (field, rest)) :
    ∃ source, s = source ++ rest ∧ SourceOf (.field field) ('{' :: source) := by
  rcases exists_of_bind_eq_ok h with ⟨e, hname, hfield⟩
  rcases append_of_takeName hname with ⟨rfl, hstop⟩
  split_ifs at hfield with hclose hcolon
  · cases hfield
    exact ⟨e.name ++ ['}'], by simp [hclose], by simpa using sourceOf_plain e.name none⟩
  · rcases sourceOf_of_takeFieldSpec hfield with ⟨spec, hrest, hsource⟩
    refine ⟨e.name ++ ':' :: spec ++ ['}'], by simp [hcolon, hrest], ?_⟩
    simpa using hsource
  · have hmark : e.stop = '!' := by
      simpa [hclose, hcolon] using hstop
    unfold takeConversion at hfield
    split at hfield
    · cases hfield
    · next c _ hrest =>
      cases hfield
      exact ⟨e.name ++ ['!', c, '}'], by simp [hmark, hrest],
        by simpa using sourceOf_plain e.name (some c)⟩
    · next c _ hrest =>
      rcases sourceOf_of_takeFieldSpec hfield with ⟨spec, hspec, hsource⟩
      refine ⟨e.name ++ '!' :: c :: ':' :: spec ++ ['}'], by simp [hmark, hrest, hspec], ?_⟩
      simpa using hsource
    · cases hfield
    · cases hfield

/-! ## Segments -/

/-- What a segment is taken from. -/
theorem exists_source_of_nextSegment {segment : Segment} (hs : s ≠ [])
    (h : nextSegment s = .ok (segment, rest)) :
    ∃ source, s = source ++ rest ∧ SourceOf segment source := by
  have hsplit := plainStart_append_braceStart s
  have hplain : ∀ c ∈ plainStart s, isBrace c = false := fun _ => isBrace_of_mem_plainStart
  rw [nextSegment_eq] at h
  generalize plainStart s = plain at hsplit hplain h
  generalize braceStart s = after at hsplit h
  subst hsplit
  unfold segmentAt at h
  split at h
  · cases h
    exact ⟨plain, rfl, .literal (by simpa using hs) hplain⟩
  · cases h
    exact ⟨plain ++ ['}', '}'], by simp, .doubled hplain rfl⟩
  · cases h
    exact ⟨plain ++ ['{', '{'], by simp, .doubled hplain rfl⟩
  · cases h
  · split_ifs at h with hempty
    · rcases exists_of_map_eq_ok h with ⟨⟨field, rest'⟩, hfield, heq⟩
      cases heq
      rcases exists_source_of_takeField hfield with ⟨source, rfl, hsource⟩
      exact ⟨'{' :: source, by simp [hempty], hsource⟩
    · cases h
      exact ⟨plain, rfl, .literal hempty hplain⟩
  · cases h

/-! ## Texts -/

/-- A text made of the sources of segments, one after another. -/
inductive SourcesOf : List Segment → List Char → Prop where
  | nil : SourcesOf [] []
  | cons {segment : Segment} {segments : List Segment} {source rest : List Char} :
      SourceOf segment source → SourcesOf segments rest →
      SourcesOf (segment :: segments) (source ++ rest)

/-- A scan without a defect leaves nothing of the text out. -/
theorem sourcesOf_of_scanAll (h : (scanAll s).2 = none) : SourcesOf (scanAll s).1 s := by
  -- By the length of the text, since a scan goes on with what a segment leaves of it.
  induction hn : s.length using Nat.strongRecOn generalizing s with
  | _ n ih =>
      by_cases hs : s = []
      · subst hs
        exact .nil
      · cases hnext : nextSegment s with
        | error e =>
            rw [scanAll_of_error hs hnext] at h
            cases h
        | ok next =>
            rcases next with ⟨segment, rest⟩
            have hlt : rest.length < n := hn ▸ length_lt_of_nextSegment hs hnext
            rcases exists_source_of_nextSegment hs hnext with ⟨source, hsplit, hsource⟩
            rw [scanAll_of_ok hs hnext] at h ⊢
            rw [hsplit]
            exact .cons hsource (ih rest.length hlt h rfl)

end Template
end FormatCheck
