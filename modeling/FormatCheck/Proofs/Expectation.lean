import FormatCheck.Expectation
import FormatCheck.Proofs.Template.Merge
import FormatCheck.Proofs.Template.Numbering
import FormatCheck.Proofs.Template.Source
import Mathlib.Control.Monad.Basic

/-!
# Expected quotes

Whether the quotes of a rendering are changed is read off the text of its template, which is
searched for the pattern of a field with an `r` conversion. On a template that renders, every such
field has the pattern. Literal text can have it too: a doubled opening brace is an opening brace to
the search, and the closing brace of any later field ends the pattern.

The `outline` of a template is its literal text, with every field left out but for its closing
brace. The search finds a field with an `r` conversion, or what it would find in the outline
(`SourcesOf.looksRepr_iff`), so that a template without an opening brace in its literal text is
searched rightly.
-/

namespace FormatCheck

variable {s t : List Char}

/-! ## The pattern -/

/-- Digits and `!r`, and a closing brace somewhere behind them. -/
def ReprFollows (s : List Char) : Prop :=
  ∃ digits rest, s = digits ++ '!' :: 'r' :: rest ∧ (∀ c ∈ digits, c.isDigit = true) ∧ '}' ∈ rest

/-- The pattern of a field with an `r` conversion, somewhere in a text. -/
def LooksRepr (s : List Char) : Prop := ∃ front after, s = front ++ '{' :: after ∧ ReprFollows after

theorem startsReprField_iff : startsReprField s = true ↔ ReprFollows s := by
  constructor
  · intro h
    unfold startsReprField at h
    split at h
    · next rest hdrop =>
      refine ⟨s.takeWhile Char.isDigit, rest, ?_, ?_, of_decide_eq_true h⟩
      · rw [← hdrop, List.takeWhile_append_dropWhile]
      · exact List.all_eq_true.mp List.all_takeWhile
    · cases h
  · rintro ⟨digits, rest, rfl, hdigits, hclose⟩
    unfold startsReprField
    rw [Text.dropWhile_run hdigits (Text.stops_cons rfl _)]
    exact decide_eq_true hclose

/-- Nothing but the mark may follow the digits. -/
theorem reprFollows_append {digits after : List Char} (hdigits : ∀ c ∈ digits, c.isDigit = true)
    (hafter : Text.Stops Char.isDigit after) :
    ReprFollows (digits ++ after) ↔ ∃ rest, after = '!' :: 'r' :: rest ∧ '}' ∈ rest := by
  rw [← startsReprField_iff, startsReprField, Text.dropWhile_run hdigits hafter]
  split
  · simp
  · next hother =>
    constructor
    · intro h
      cases h
    · rintro ⟨rest, heq, _⟩
      exact absurd heq (hother rest)

theorem not_looksRepr_nil : ¬ LooksRepr [] := by
  rintro ⟨front, after, heq, _⟩
  cases front <;> cases heq

theorem looksRepr_cons {c : Char} :
    LooksRepr (c :: s) ↔ c = '{' ∧ ReprFollows s ∨ LooksRepr s := by
  constructor
  · rintro ⟨front, after, heq, hfollows⟩
    cases front with
    | nil =>
        cases heq
        exact Or.inl ⟨rfl, hfollows⟩
    | cons d front =>
        cases heq
        exact Or.inr ⟨front, after, rfl, hfollows⟩
  · rintro (⟨rfl, hfollows⟩ | ⟨front, after, rfl, hfollows⟩)
    · exact ⟨[], s, rfl, hfollows⟩
    · exact ⟨c :: front, after, rfl, hfollows⟩

theorem looksRepr_open : LooksRepr ('{' :: s) ↔ ReprFollows s ∨ LooksRepr s := by
  rw [looksRepr_cons, eq_self_iff_true, true_and]

/-- Text without an opening brace starts no pattern. -/
theorem looksRepr_append {front : List Char} (hfront : '{' ∉ front) :
    LooksRepr (front ++ s) ↔ LooksRepr s := by
  induction front with
  | nil => rfl
  | cons c front ih =>
      have hc : ¬ c = '{' := fun heq => hfront (heq ▸ List.mem_cons_self)
      have htail : '{' ∉ front := fun hmem => hfront (List.mem_cons_of_mem c hmem)
      rw [List.cons_append, looksRepr_cons, ih htail]
      simp [hc]

/-- The search finds the pattern wherever it is. -/
theorem hasReprField_iff : hasReprField s = true ↔ LooksRepr s := by
  induction s with
  | nil => simp [hasReprField, not_looksRepr_nil]
  | cons c s ih => simp [hasReprField, looksRepr_cons, startsReprField_iff, ih]

/-! ## Outlines -/

namespace Template

/-- The literal text of a segment, or the closing brace of a field. -/
def outlineOf : Segment → List Char
  | .literal text => text.toList
  | .field _ => ['}']

/-- The literal text of segments, with the closing braces of the fields in their places. -/
def outline (segments : List Segment) : List Char := segments.flatMap outlineOf

variable {segment : Segment} {segments : List Segment} {source rest : List Char}

theorem outline_cons (segment : Segment) (segments : List Segment) :
    outline (segment :: segments) = outlineOf segment ++ outline segments := List.flatMap_cons

/-- What decides whether the pattern of a field goes on in a text: the text before its first brace,
and whether a brace closes at all. -/
structure SameFront (s t : List Char) : Prop where
  plain : plainStart s = plainStart t
  closes : '}' ∈ s ↔ '}' ∈ t

theorem isBrace_of_isDigit {c : Char} (h : c.isDigit = true) : isBrace c = false := by
  cases hc : isBrace c with
  | false => rfl
  | true =>
      simp only [isBrace, Bool.or_eq_true, decide_eq_true_eq] at hc
      rcases hc with rfl | rfl
      · cases h
      · cases h

theorem SameFront.symm (h : SameFront s t) : SameFront t s where
  plain := h.plain.symm
  closes := h.closes.symm

theorem SameFront.reprFollows (h : SameFront s t) (hs : ReprFollows s) : ReprFollows t := by
  rcases hs with ⟨digits, rest, rfl, hdigits, hclose⟩
  have hrun : ∀ c ∈ digits ++ ['!', 'r'], isBrace c = false := by
    intro c hc
    rcases List.mem_append.mp hc with hdigit | hmark
    · exact isBrace_of_isDigit (hdigits c hdigit)
    · simp only [List.mem_cons, List.not_mem_nil, or_false] at hmark
      rcases hmark with rfl | rfl
      · rfl
      · rfl
  -- The digits and the mark stand before the first brace, in one text as in the other.
  have hplain : digits ++ ['!', 'r'] ++ plainStart rest = plainStart t := by
    rw [← h.plain, ← plainStart_append hrun]
    simp
  have ht : t = digits ++ ['!', 'r'] ++ (plainStart rest ++ braceStart t) := by
    rw [← List.append_assoc, hplain, plainStart_append_braceStart]
  have hcloses : '}' ∈ t := h.closes.mp (by simp [hclose])
  refine ⟨digits, plainStart rest ++ braceStart t, by simpa using ht, hdigits, ?_⟩
  -- The brace that closes is none of them, so it comes later.
  rw [ht] at hcloses
  rcases List.mem_append.mp hcloses with hmem | hmem
  · cases hrun '}' hmem
  · exact hmem

theorem SameFront.reprFollows_iff (h : SameFront s t) : ReprFollows s ↔ ReprFollows t :=
  ⟨h.reprFollows, h.symm.reprFollows⟩

/-- A segment leaves the same before its first brace in the text and in the outline. -/
theorem SourceOf.sameFront (hsource : SourceOf segment source) (h : SameFront rest t) :
    SameFront (source ++ rest) (outlineOf segment ++ t) := by
  cases hsource with
  | literal _ hplain =>
      exact ⟨by simp [outlineOf, plainStart_append hplain, h.plain], by simp [outlineOf, h.closes]⟩
  | @doubled text brace hplain hbrace =>
      refine ⟨?_, by simp [outlineOf, h.closes]⟩
      simp only [outlineOf, String.toList_ofList, List.append_assoc, plainStart_append hplain]
      simp [plainStart, hbrace]
  | field _ _ _ =>
      exact ⟨by simp [outlineOf, plainStart, isBrace], by simp [outlineOf]⟩

theorem SourcesOf.sameFront (h : SourcesOf segments s) : SameFront s (outline segments) := by
  induction h with
  | nil => exact ⟨rfl, Iff.rfl⟩
  | cons hsource _ ih =>
      rw [outline_cons]
      exact hsource.sameFront ih

/-! ## Fields that render -/

/-- What a field has that renders: a position as its name, a conversion that is known, and no field
inside its specifier. -/
structure Renders (field : Field) : Prop where
  name : ∀ c ∈ field.name.toList, c.isDigit = true
  conversion : ∀ c ∈ field.conversion, c = 'r' ∨ c = 's' ∨ c = 'a'
  nested : field.nested = false

variable {field : Field} {specText : List Char}

/-- No brace opens in a field that renders, but for its own. -/
theorem Renders.not_mem_open (h : Renders field)
    (hnested : field.nested = true ↔ '{' ∈ field.spec.toList)
    (hspec : specText = ':' :: field.spec.toList ∨ specText = [] ∧ field.spec = "") :
    '{' ∉ field.name.toList ++ conversionText field.conversion ++ specText ++ ['}'] := by
  have hname : '{' ∉ field.name.toList := by
    intro hmem
    cases h.name '{' hmem
  have hconversion : '{' ∉ conversionText field.conversion := by
    cases hc : field.conversion with
    | none => simp
    | some c => rcases h.conversion c hc with rfl | rfl | rfl <;> decide
  -- A brace in the specifier would open another field.
  have hopen : '{' ∉ field.spec.toList := by
    rw [← hnested, h.nested]
    exact Bool.false_ne_true
  have hspecText : '{' ∉ specText := by
    rcases hspec with rfl | ⟨rfl, _⟩
    · simp [hopen]
    · simp
  simp only [List.mem_append, not_or]
  exact ⟨⟨⟨hname, hconversion⟩, hspecText⟩, by decide⟩

/-- The pattern goes on in a field that renders just if the field has the conversion. -/
theorem Renders.reprFollows_iff (h : Renders field)
    (hspec : specText = ':' :: field.spec.toList ∨ specText = [] ∧ field.spec = "")
    (rest : List Char) :
    ReprFollows
        (field.name.toList ++ conversionText field.conversion ++ specText ++ ['}'] ++ rest) ↔
      field.conversion = some 'r' := by
  simp only [List.append_assoc, List.singleton_append]
  cases hc : field.conversion with
  | none =>
      -- A colon or the closing brace follows the name.
      rcases hspec with rfl | ⟨rfl, _⟩
      · simp only [conversionText, List.nil_append, List.cons_append]
        rw [reprFollows_append h.name (Text.stops_cons rfl _)]
        simp
      · simp only [conversionText, List.nil_append]
        rw [reprFollows_append h.name (Text.stops_cons rfl _)]
        simp
  | some c =>
      -- The mark follows the name, and the pattern asks for `r` behind it.
      simp only [conversionText, List.cons_append, List.nil_append]
      rw [reprFollows_append h.name (Text.stops_cons rfl _)]
      constructor
      · rintro ⟨tail, heq, _⟩
        cases heq
        rfl
      · intro heq
        cases heq
        exact ⟨specText ++ '}' :: rest, rfl, by simp⟩

/-! ## Templates that render -/

theorem renders_of_renderField {v : Value} {text : String}
    (hname : ∀ c ∈ field.name.toList, c.isDigit = true)
    (h : Render.renderField field v = .ok text) : Renders field := by
  rcases exists_of_bind_eq_ok h with ⟨w, hconvert, htext⟩
  refine ⟨hname, ?_, ?_⟩
  · intro c hc
    rw [Render.convertField, hc] at hconvert
    simp only [Render.convert] at hconvert
    split_ifs at hconvert with hr hs ha
    · exact Or.inl hr
    · exact Or.inr (Or.inl hs)
    · exact Or.inr (Or.inr ha)
  · cases hnested : field.nested with
    | false => rfl
    | true =>
        rw [hnested] at htext
        cases htext

variable {args : List Value} {failure : Option FormatError} {numbering : Numbering} {r : String}

/-- Where segments render, the scan ended without a defect, and every field renders. -/
theorem renders_of_renderSegments
    (h : Render.renderSegments args failure numbering segments = .ok r) :
    failure = none ∧ ∀ field, .field field ∈ segments → Renders field := by
  induction segments generalizing numbering r with
  | nil =>
      cases failure with
      | none => exact ⟨rfl, by simp⟩
      | some e => cases h
  | cons segment segments ih =>
      cases segment with
      | literal text =>
          rw [Render.renderSegments_literal] at h
          rcases exists_of_map_eq_ok h with ⟨rest, hrest, _⟩
          rcases ih hrest with ⟨hnone, hall⟩
          exact ⟨hnone, by simpa using hall⟩
      | field field =>
          -- The name has a position, or the rendering would have ended with it.
          unfold Render.renderSegments at h
          split at h
          · cases h
          · next index numbering' hresolve =>
            rcases exists_of_bind_eq_ok h with ⟨v, _, hfield⟩
            rcases exists_of_bind_eq_ok hfield with ⟨text, htext, hrest⟩
            rcases exists_of_bind_eq_ok hrest with ⟨rest, hrest, _⟩
            rcases ih hrest with ⟨hnone, hall⟩
            have hname := Numbering.isDigit_of_resolve (congrArg Prod.fst hresolve)
            refine ⟨hnone, ?_⟩
            intro f hf
            rcases List.mem_cons.mp hf with heq | hmem
            · cases heq
              exact renders_of_renderField hname htext
            · exact hall f hmem

/-- Some field has an `r` conversion. -/
def HasReprConversion (segments : List Segment) : Prop :=
  ∃ field, .field field ∈ segments ∧ field.conversion = some 'r'

theorem hasReprConversion_literal (text : String) :
    HasReprConversion (.literal text :: segments) ↔ HasReprConversion segments := by
  simp [HasReprConversion]

theorem hasReprConversion_field (field : Field) :
    HasReprConversion (.field field :: segments) ↔
      field.conversion = some 'r' ∨ HasReprConversion segments := by
  simp [HasReprConversion, or_and_right, exists_or]

/-- How one segment adds to what a search finds in the text behind it. -/
theorem SourceOf.looksRepr_iff (hsource : SourceOf segment source)
    (hsegment : ∀ field, segment = .field field → Renders field) (h : SameFront rest t)
    (hrest : LooksRepr rest ↔ HasReprConversion segments ∨ LooksRepr t) :
    LooksRepr (source ++ rest) ↔
      HasReprConversion (segment :: segments) ∨ LooksRepr (outlineOf segment ++ t) := by
  cases hsource with
  | literal _ hplain =>
      have hopen : '{' ∉ source := fun hmem => Bool.noConfusion (hplain '{' hmem)
      rw [looksRepr_append hopen, hasReprConversion_literal, outlineOf, String.toList_ofList,
        looksRepr_append hopen]
      exact hrest
  | @doubled text brace hplain hbrace =>
      have hopen : '{' ∉ text := fun hmem => Bool.noConfusion (hplain '{' hmem)
      simp only [hasReprConversion_literal, outlineOf, String.toList_ofList, List.append_assoc,
        looksRepr_append hopen, List.cons_append, List.nil_append]
      simp only [isBrace, Bool.or_eq_true, decide_eq_true_eq] at hbrace
      rcases hbrace with rfl | rfl
      · -- The pattern can begin at the second of the braces, which is the one of the outline.
        have hfirst : ¬ ReprFollows ('{' :: rest) := by
          rw [← startsReprField_iff]
          exact Bool.false_ne_true
        rw [looksRepr_open, or_iff_right hfirst, looksRepr_open, looksRepr_open,
          h.reprFollows_iff, hrest, or_left_comm]
      · simpa [looksRepr_cons] using hrest
  | @field f specText hspec hnested _ =>
      -- Only at its own brace can the pattern begin in a field, and not at all in its outline.
      have hrenders := hsegment f rfl
      rw [List.cons_append, looksRepr_open, hrenders.reprFollows_iff hspec,
        looksRepr_append (hrenders.not_mem_open hnested hspec), hasReprConversion_field, hrest,
        outlineOf, looksRepr_append (by decide), or_assoc]

/-- A text has the pattern if a field has the conversion or the outline has the pattern. -/
theorem SourcesOf.looksRepr_iff (h : SourcesOf segments s)
    (hfields : ∀ field, .field field ∈ segments → Renders field) :
    LooksRepr s ↔ HasReprConversion segments ∨ LooksRepr (outline segments) := by
  induction h with
  | nil => simp [HasReprConversion, outline]
  | cons hsource hrest ih =>
      rw [outline_cons]
      refine hsource.looksRepr_iff ?_ hrest.sameFront (ih ?_)
      · rintro field rfl
        exact hfields field List.mem_cons_self
      · intro field hmem
        exact hfields field (List.mem_cons_of_mem _ hmem)

end Template

/-! ## Expectations -/

open Template (scan fields outline)

variable {template text r : String}

/-- A field of the template has an `r` conversion. -/
def Represents (template : String) : Prop :=
  ∃ field ∈ fields template, field.conversion = some 'r'

/-- The literal text of the template has the pattern of a field with an `r` conversion. -/
def Mimics (template : String) : Prop := LooksRepr (outline (scan template).1)

/-- What the search finds in a template that renders. -/
theorem hasReprField_of_renderOne {v : Value} (h : Render.renderOne template v = .ok r) :
    hasReprField template.toList = true ↔ Represents template ∨ Mimics template := by
  obtain ⟨hnone, hfields⟩ : (scan template).2 = none ∧
      ∀ field, Segment.field field ∈ (scan template).1 → Template.Renders field :=
    Template.renders_of_renderSegments h
  have hscan : scan template = Template.scanAll template.toList := by
    rw [← Template.scan_ofList, String.ofList_toList]
  have hsources : Template.SourcesOf (scan template).1 template.toList := by
    rw [hscan] at hnone ⊢
    exact Template.sourcesOf_of_scanAll hnone
  calc
    hasReprField template.toList = true ↔ LooksRepr template.toList := hasReprField_iff
    _ ↔ Template.HasReprConversion (scan template).1 ∨ Mimics template :=
      hsources.looksRepr_iff hfields
    _ ↔ Represents template ∨ Mimics template := by
      simp only [Template.HasReprConversion, Represents, Template.mem_fields]

/-- The quotes of a rendered string are changed where a field has an `r` conversion, and where the
literal text of the template has the pattern of such a field; they are kept everywhere else. -/
theorem expectedRendering_str (h : Render.renderOne template (.str text) = .ok r) :
    (hasReprField template.toList = true ↔ Represents template ∨ Mimics template) ∧
      (Represents template ∨ Mimics template →
        expectedRendering template (.str text) = .ok (normalizeQuotes r)) ∧
      (¬ Represents template → ¬ Mimics template →
        expectedRendering template (.str text) = .ok r) := by
  have hsearch := hasReprField_of_renderOne h
  refine ⟨hsearch, ?_, ?_⟩
  · intro hpattern
    have hfound := hsearch.mpr hpattern
    simp [expectedRendering, h, bind, Except.bind, hfound, Value.kind]
  · intro hfields hliterals
    have hmissed : ¬ hasReprField template.toList = true := by
      rw [hsearch]
      exact not_or.mpr ⟨hfields, hliterals⟩
    simp [expectedRendering, h, bind, Except.bind, hmissed]

/-- An escaped field before one that represents its value. -/
theorem expectedRendering_str_escapedField :
    Render.renderOne "\x7b\x7b!s\x7d\x7d \x7b0!r:>6\x7d" (.str "a") = .ok "\x7b!s\x7d    'a'" ∧
      Represents "\x7b\x7b!s\x7d\x7d \x7b0!r:>6\x7d" ∧
      expectedRendering "\x7b\x7b!s\x7d\x7d \x7b0!r:>6\x7d" (.str "a") =
        .ok "\x7b!s\x7d    \"a\"" := by
  have hrender : Render.renderOne "\x7b\x7b!s\x7d\x7d \x7b0!r:>6\x7d" (.str "a") =
      .ok "\x7b!s\x7d    'a'" := by
    decide +kernel
  have hfield : Represents "\x7b\x7b!s\x7d\x7d \x7b0!r:>6\x7d" :=
    ⟨⟨"0", some 'r', ">6", false⟩, by decide +kernel, rfl⟩
  rcases expectedRendering_str hrender with ⟨_, hchanged, _⟩
  exact ⟨hrender, hfield, (hchanged (Or.inl hfield)).trans (by decide +kernel)⟩

/-- An escaped `r` conversion is taken for a field: a quote is changed that no field represents. -/
theorem expectedRendering_escapedRepr :
    ¬ Represents "\x7b\x7b!r\x7d\x7d \x7b\x7d" ∧
      Render.renderOne "\x7b\x7b!r\x7d\x7d \x7b\x7d" (.str "it's") = .ok "\x7b!r\x7d it's" ∧
      hasReprField "\x7b\x7b!r\x7d\x7d \x7b\x7d".toList = true ∧
      expectedRendering "\x7b\x7b!r\x7d\x7d \x7b\x7d" (.str "it's") =
        .ok "\x7b!r\x7d it\"s" := by
  have hfields : fields "\x7b\x7b!r\x7d\x7d \x7b\x7d" = [⟨"", none, "", false⟩] := by
    decide +kernel
  refine ⟨?_, by decide +kernel, by decide +kernel, by decide +kernel⟩
  rintro ⟨field, hfield, hconversion⟩
  rw [hfields, List.mem_singleton] at hfield
  rw [hfield] at hconversion
  cases hconversion

end FormatCheck
