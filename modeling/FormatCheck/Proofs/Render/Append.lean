import FormatCheck.Proofs.Render.MissingArgument
import FormatCheck.Proofs.Template.Append
import FormatCheck.Proofs.Template.Merge

/-!
# Templates one after the other

Two templates written one after the other render as the first followed by the second, provided that
the first renders. Two things cross the seam. The scan does so only within a literal, since a
template that renders leaves no field open. The numbering of fields does so always:

1. `renderFrom_append` renders the second template from the numbering that the first one leaves;
2. manual numbering is as good as none for fields that have a position (`renderSegments_manual`);
3. automatic numbering counts on, so the second template takes the arguments that the first one left
   over (`renderSegments_automatic`).
-/

namespace FormatCheck

/-! ## Numbering -/

namespace Numbering

/-- The numbering after a segment. -/
def step (numbering : Numbering) : Segment → Numbering
  | .literal _ => numbering
  | .field f => (numbering.resolve f.name).2

/-- The numbering after segments. -/
def after (numbering : Numbering) (segments : List Segment) : Numbering :=
  segments.foldl step numbering

@[simp] theorem resolve_automatic (next : Nat) :
    (automatic next).resolve "" = (.ok next, automatic (next + 1)) := rfl

@[simp] theorem resolve_undecided : undecided.resolve "" = (.ok 0, automatic 1) := rfl

variable {name : String} {segments : List Segment}

/-- A position that is given is the same whether the numbering is known to be manual or not yet
decided, and it is manual from there on. -/
theorem resolve_given (hname : name ≠ "") :
    (manual.resolve name).1 = (undecided.resolve name).1 ∧
      ((manual.resolve name).2 = manual ∧
        ((undecided.resolve name).2 = manual ∨
          (undecided.resolve name).2 = undecided ∧ ∀ index, (undecided.resolve name).1 ≠ .ok index)) := by
  have hne : name.toList ≠ [] := by simpa using hname
  by_cases hdigits : name.toList.all Char.isDigit = true
  · simp [resolve, hne, hdigits]
  · simp [resolve, hne, hdigits]

/-- Fields that have a position never number automatically. -/
theorem after_given {numbering : Numbering}
    (hnames : ∀ f, .field f ∈ segments → f.name ≠ "")
    (h : numbering = undecided ∨ numbering = manual) :
    numbering.after segments = undecided ∨ numbering.after segments = manual := by
  induction segments generalizing numbering with
  | nil =>
      exact h
  | cons segment segments ih =>
      have hrest : ∀ f, .field f ∈ segments → f.name ≠ "" :=
        fun f hf => hnames f (List.mem_cons_of_mem segment hf)
      refine ih hrest ?_
      cases segment with
      | literal text =>
          exact h
      | field f =>
          have hgiven := resolve_given (hnames f List.mem_cons_self)
          rcases h with rfl | rfl
          · exact hgiven.2.2.elim Or.inr fun hundecided => Or.inl hundecided.1
          · exact Or.inr hgiven.2.1

/-- Fields without a position take one position each. -/
theorem after_automatic (hnames : ∀ f, .field f ∈ segments → f.name = "") (next : Nat) :
    (automatic next).after segments =
      automatic (next + (segments.filterMap Segment.field?).length) := by
  induction segments generalizing next with
  | nil =>
      rfl
  | cons segment segments ih =>
      have hrest := ih fun f hf => hnames f (List.mem_cons_of_mem segment hf)
      cases segment with
      | literal text =>
          exact hrest next
      | field f =>
          have hstep : (automatic next).step (.field f) = automatic (next + 1) := by
            rw [step, hnames f List.mem_cons_self, resolve_automatic]
          have hfields : ((Segment.field f :: segments).filterMap Segment.field?).length =
              (segments.filterMap Segment.field?).length + 1 := rfl
          rw [after, List.foldl_cons, hstep, hfields]
          exact (hrest (next + 1)).trans (by rw [Nat.add_assoc, Nat.add_comm 1])

theorem after_undecided (hnames : ∀ f, .field f ∈ segments → f.name = "") :
    (undecided.after segments = undecided ∧ (segments.filterMap Segment.field?).length = 0) ∨
      undecided.after segments = automatic (segments.filterMap Segment.field?).length := by
  induction segments with
  | nil =>
      exact Or.inl ⟨rfl, rfl⟩
  | cons segment segments ih =>
      have hrest : ∀ f, .field f ∈ segments → f.name = "" :=
        fun f hf => hnames f (List.mem_cons_of_mem segment hf)
      cases segment with
      | literal text =>
          exact ih hrest
      | field f =>
          -- The first field decides, and the others count on from it.
          have hstep : undecided.step (.field f) = automatic 1 := by
            rw [step, hnames f List.mem_cons_self, resolve_undecided]
          have hfields : ((Segment.field f :: segments).filterMap Segment.field?).length =
              1 + (segments.filterMap Segment.field?).length := Nat.add_comm _ 1
          refine Or.inr ?_
          rw [after, List.foldl_cons, hstep, hfields]
          exact after_automatic hrest 1

end Numbering

namespace Render

open Template (scanAll nextSegment isBrace braceStart plainStart)

variable {args : List Value} {failure : Option FormatError} {numbering : Numbering}
  {segments : List Segment}

/-! ## Fields -/

/-- The rendering of a field, from the position that its name stands for. -/
def fieldText (args : List Value) (numbering : Numbering) (field : Field) :
    Except FormatError String := do
  let index ← (numbering.resolve field.name).1
  let v ← argument args index
  renderField field v

/-- Literal text, or the text of a field, before what follows. -/
def segmentText (args : List Value) (numbering : Numbering) : Segment → Except FormatError String
  | .literal text => .ok text
  | .field field => fieldText args numbering field

/-- One segment after the other. -/
theorem renderSegments_cons (segment : Segment) :
    renderSegments args failure numbering (segment :: segments) =
      segmentText args numbering segment >>= fun text =>
        (renderSegments args failure (numbering.step segment) segments).map (text ++ ·) := by
  cases segment with
  | literal text =>
      exact renderSegments_literal args failure text numbering segments
  | field field =>
      rcases hresolve : numbering.resolve field.name with ⟨e | index, numbering'⟩
      · simp [renderSegments, segmentText, fieldText, hresolve, bind, Except.bind]
      · cases harg : argument args index with
        | error e =>
            simp [renderSegments, segmentText, fieldText, hresolve, harg, bind, Except.bind]
        | ok v =>
            cases htext : renderField field v with
            | error e =>
                simp [renderSegments, segmentText, fieldText, hresolve, harg, htext, bind,
                  Except.bind]
            | ok text =>
                cases hrest : renderSegments args failure numbering' segments <;>
                  simp [renderSegments, segmentText, fieldText, hresolve, harg, htext, hrest, bind,
                    Except.bind, Except.map, Numbering.step]

/-- Before a field with a position, manual numbering is as good as none. -/
theorem renderSegments_manual (hnames : ∀ f, .field f ∈ segments → f.name ≠ "") :
    renderSegments args failure .manual segments =
      renderSegments args failure .undecided segments := by
  induction segments with
  | nil =>
      rfl
  | cons segment segments ih =>
      have hrest := ih fun f hf => hnames f (List.mem_cons_of_mem segment hf)
      rw [renderSegments_cons, renderSegments_cons]
      cases segment with
      | literal text =>
          simp only [Numbering.step, hrest]
          rfl
      | field f =>
          rcases Numbering.resolve_given (hnames f List.mem_cons_self) with
            ⟨hindex, hmanual, hsame⟩
          simp only [segmentText, fieldText, Numbering.step, hindex, hmanual]
          rcases hsame with hsame | ⟨hsame, hrejected⟩
          · rw [hsame]
          · -- A name that leaves the numbering open is no position.
            cases hname : (Numbering.undecided.resolve f.name).1 with
            | error e => rfl
            | ok index => exact absurd hname (hrejected index)

/-- Automatic numbering that counts on takes the arguments from there. -/
theorem renderSegments_automatic (hnames : ∀ f, .field f ∈ segments → f.name = "")
    {count : Nat} (hfailure : ∀ e ∈ failure, e.shiftIndex count = e) (next : Nat) :
    renderSegments args failure (.automatic (next + count)) segments =
      (renderSegments (args.drop count) failure (.automatic next) segments).mapError
        (FormatError.shiftIndex count) := by
  induction segments generalizing next with
  | nil =>
      cases failure with
      | none => rfl
      | some e => exact congrArg Except.error (hfailure e rfl).symm
  | cons segment segments ih =>
      have hrest := ih fun f hf => hnames f (List.mem_cons_of_mem segment hf)
      rw [renderSegments_cons, renderSegments_cons]
      cases segment with
      | literal text =>
          simp only [segmentText, Numbering.step, hrest next, bind, Except.bind]
          cases renderSegments (args.drop count) failure (.automatic next) segments <;> rfl
      | field f =>
          have hname : f.name = "" := hnames f List.mem_cons_self
          have hargument : argument args (next + count) =
              (argument (args.drop count) next).mapError (FormatError.shiftIndex count) := by
            rw [argument, argument, List.getElem?_drop, Nat.add_comm count next]
            cases args[next + count]? <;> rfl
          have hnext : next + count + 1 = next + 1 + count := by omega
          simp only [segmentText, fieldText, Numbering.step, hname, Numbering.resolve_automatic,
            hargument, hnext, hrest (next + 1), bind, Except.bind]
          cases argument (args.drop count) next with
          | error e =>
              rfl
          | ok v =>
              have hfield := (neverMissing_renderField f v).mapError_shiftIndex count
              simp only [Except.mapError]
              cases htext : renderField f v with
              | error e =>
                  rw [htext] at hfield
                  exact hfield.symm
              | ok text =>
                  cases renderSegments (args.drop count) failure (.automatic (next + 1))
                    segments <;> rfl

/-- The first field without a position decides for automatic numbering from zero. -/
theorem renderSegments_undecided (hnames : ∀ f, .field f ∈ segments → f.name = "") :
    renderSegments args failure .undecided segments =
      renderSegments args failure (.automatic 0) segments := by
  induction segments with
  | nil =>
      rfl
  | cons segment segments ih =>
      have hrest := ih fun f hf => hnames f (List.mem_cons_of_mem segment hf)
      rw [renderSegments_cons, renderSegments_cons]
      cases segment with
      | literal text =>
          simp only [Numbering.step, hrest]
          rfl
      | field f =>
          have hname : f.name = "" := hnames f List.mem_cons_self
          simp only [segmentText, fieldText, Numbering.step, hname, Numbering.resolve_automatic,
            Numbering.resolve_undecided]

/-! ## Texts -/

/-- Renders a text as the rest of a template with the given numbering. -/
def renderFrom (args : List Value) (numbering : Numbering) (s : List Char) :
    Except FormatError String :=
  renderSegments args (scanAll s).2 numbering (scanAll s).1

variable {s rest : List Char}

theorem renderFrom_of_ok {segment : Segment} (hs : s ≠ [])
    (h : nextSegment s = .ok (segment, rest)) :
    renderFrom args numbering s =
      segmentText args numbering segment >>= fun text =>
        (renderFrom args (numbering.step segment) rest).map (text ++ ·) := by
  rw [renderFrom, Template.scanAll_of_ok hs h, renderSegments_cons]
  rfl

theorem renderFrom_of_error {e : FormatError} (hs : s ≠ []) (h : nextSegment s = .error e) :
    renderFrom args numbering s = .error e := by
  rw [renderFrom, Template.scanAll_of_error hs h]
  rfl

theorem map_append_map_append (x : Except FormatError String) (a b : String) :
    (x.map (b ++ ·)).map (a ++ ·) = x.map (a ++ b ++ ·) := by
  cases x with
  | error e => rfl
  | ok c => simp [Except.map, String.append_assoc]

theorem map_empty_append (x : Except FormatError String) : x.map ("" ++ ·) = x := by
  cases x with
  | error e => rfl
  | ok c => simp [Except.map]

theorem renderFrom_literal {text : String} (h : nextSegment s = .ok (.literal text, rest)) :
    renderFrom args numbering s = (renderFrom args numbering rest).map (text ++ ·) := by
  by_cases hs : s = []
  · subst hs
    cases h
    exact (map_empty_append _).symm
  · exact renderFrom_of_ok hs h

/-- Plain text comes first in the rendering of what it stands before. -/
theorem renderFrom_plain {plain : List Char} (hplain : ∀ c ∈ plain, isBrace c = false)
    (s : List Char) :
    renderFrom args numbering (plain ++ s) =
      (renderFrom args numbering s).map (String.ofList plain ++ ·) := by
  by_cases hne : plain = []
  · subst hne
    exact (map_empty_append _).symm
  · rcases Template.nextSegment_plain hplain hne s with
      ⟨text, rest, hs, hjoined⟩ | hcut | ⟨e, hs, herror⟩
    · rw [renderFrom_literal hs, renderFrom_literal hjoined, map_append_map_append]
    · exact renderFrom_literal hcut
    · have hnonempty : s ≠ [] := by
        rintro rfl
        cases hs
      have happend : plain ++ s ≠ [] := by simp [hne]
      rw [renderFrom_of_error hnonempty hs, renderFrom_of_error happend herror]
      rfl

/-- A text that renders leaves the scan where a segment may begin, so that more text after it is
rendered on its own, from the numbering that the fields leave. -/
theorem renderFrom_append {a : String} (h : renderFrom args numbering s = .ok a)
    (more : List Char) :
    renderFrom args numbering (s ++ more) =
      (renderFrom args (numbering.after (scanAll s).1) more).map (a ++ ·) := by
  induction hn : s.length using Nat.strongRecOn generalizing s numbering a with
  | _ n ih =>
      by_cases hs : s = []
      · subst hs
        cases h
        exact (map_empty_append _).symm
      · cases hnext : nextSegment s with
        | error e =>
            rw [renderFrom_of_error hs hnext] at h
            cases h
        | ok next =>
            rcases next with ⟨segment, rest⟩
            have hlt := Template.length_lt_of_nextSegment hs hnext
            by_cases hbrace : braceStart s = []
            · -- The text is one literal, which what follows may go on with.
              have hplain : plainStart s = s := by
                simpa [hbrace] using Template.plainStart_append_braceStart s
              have hchars : ∀ c ∈ s, isBrace c = false := by
                intro c hc
                rw [← hplain] at hc
                exact Template.isBrace_of_mem_plainStart hc
              have hliteral : nextSegment s = .ok (.literal (String.ofList s), []) := by
                rw [Template.nextSegment_eq, hbrace, hplain]
                rfl
              rw [renderFrom_literal hliteral] at h
              rw [renderFrom_plain hchars, Template.scanAll_of_ok hs hliteral]
              cases h
              simp [Numbering.after, Numbering.step]
            · -- The segment ended at a brace, and the rest is shorter.
              have hsmore : s ++ more ≠ [] := by simp [hs]
              rw [renderFrom_of_ok hs hnext] at h
              rcases exists_of_bind_eq_ok h with ⟨text, htext, hmap⟩
              rcases exists_of_map_eq_ok hmap with ⟨b, hrest, rfl⟩
              have hmore := ih rest.length (hn ▸ hlt) hrest rfl
              rw [renderFrom_of_ok hsmore (Template.nextSegment_extend hbrace hnext more), htext,
                Template.scanAll_of_ok hs hnext, hmore]
              exact map_append_map_append _ text b

/-! ## Templates -/

theorem render_eq (template : String) (args : List Value) :
    render template args = renderFrom args .undecided template.toList := by
  rw [render, ← String.ofList_toList (s := template), Template.scan_ofList]
  simp [renderFrom]

theorem fields_eq (template : String) :
    Template.fields template = (scanAll template.toList).1.filterMap Segment.field? := rfl

/-- Rendering is compositional. If a template renders, then a template that is written after it
renders, or is rejected, as it would be alone: with the same arguments if all fields have positions,
and with the arguments that are left over if none has. -/
theorem render_append (first second : String) (args : List Value) (a : String)
    (h : render first args = .ok a) :
    ((∀ f ∈ Template.fields first ++ Template.fields second, f.name ≠ "") →
      render (first ++ second) args = (render second args).map (a ++ ·)) ∧
    ((∀ f ∈ Template.fields first ++ Template.fields second, f.name = "") →
      render (first ++ second) args =
        ((render second (args.drop (Template.fields first).length)).map (a ++ ·)).mapError
          (FormatError.shiftIndex (Template.fields first).length)) := by
  have hfirst : ∀ {f : Field}, .field f ∈ (scanAll first.toList).1 →
      f ∈ Template.fields first ++ Template.fields second :=
    fun hf => List.mem_append_left _ (Template.mem_fields.mpr hf)
  have hsecond : ∀ {f : Field}, .field f ∈ (scanAll second.toList).1 →
      f ∈ Template.fields first ++ Template.fields second :=
    fun hf => List.mem_append_right _ (Template.mem_fields.mpr hf)
  rw [render_eq] at h
  have happend := renderFrom_append h second.toList
  rw [← String.toList_append, ← render_eq] at happend
  constructor
  · intro hnames
    have hmanual : renderFrom args .manual second.toList = render second args := by
      rw [render_eq]
      exact renderSegments_manual fun f hf => hnames f (hsecond hf)
    rcases Numbering.after_given (fun f hf => hnames f (hfirst hf)) (Or.inl rfl) with
      hafter | hafter
    · rw [happend, hafter, render_eq]
    · rw [happend, hafter, hmanual]
  · intro hnames
    have hseconds : ∀ f, .field f ∈ (scanAll second.toList).1 → f.name = "" :=
      fun f hf => hnames f (hsecond hf)
    -- Whether the first template has fields or not, the second one starts after their number.
    have hstart : renderFrom args (Numbering.undecided.after (scanAll first.toList).1)
        second.toList = renderFrom args (.automatic (0 + (Template.fields first).length))
          second.toList := by
      rw [Nat.zero_add]
      rcases Numbering.after_undecided (fun f hf => hnames f (hfirst hf)) with
        ⟨hafter, hnone⟩ | hafter
      · rw [hafter, fields_eq, hnone]
        exact renderSegments_undecided hseconds
      · rw [hafter, fields_eq]
    have hshift : renderFrom args (.automatic (0 + (Template.fields first).length))
        second.toList = (render second (args.drop (Template.fields first).length)).mapError
          (FormatError.shiftIndex (Template.fields first).length) := by
      rw [render_eq, renderFrom, renderFrom, renderSegments_undecided hseconds]
      exact renderSegments_automatic hseconds
        (fun e he => Template.shiftIndex_of_mem_scanAll he _) 0
    rw [happend, hstart, hshift]
    cases render second (args.drop (Template.fields first).length) <;> rfl

/-- Templates with braces side by side at the seam. In the first pair all fields have positions; in
the second none has, and the missing argument is reported at its position among all of them. -/
theorem render_append_bracesAtSeam :
    render ("\x7b0\x7d\x7b\x7b" ++ "\x7b0:b\x7d\x7d\x7d") [.int 7] = .ok "7\x7b111\x7d" ∧
      render ("\x7b:>3\x7d\x7b\x7b" ++ "\x7b!r\x7d\x7d\x7d\x7b\x7d") [.int 7, .bool true] =
        .error (.indexOutOfRange 2) := by
  constructor
  · have hfirst : render "\x7b0\x7d\x7b\x7b" [.int 7] = .ok "7\x7b" := by decide +kernel
    have hsecond : render "\x7b0:b\x7d\x7d\x7d" [.int 7] = .ok "111\x7d" := by decide +kernel
    have hnames : ∀ f ∈ Template.fields "\x7b0\x7d\x7b\x7b" ++
        Template.fields "\x7b0:b\x7d\x7d\x7d", f.name ≠ "" := by
      decide +kernel
    have happend := (render_append _ _ _ _ hfirst).1 hnames
    rw [hsecond] at happend
    exact happend
  · have hfirst : render "\x7b:>3\x7d\x7b\x7b" [.int 7, .bool true] = .ok "  7\x7b" := by
      decide +kernel
    have hsecond : render "\x7b!r\x7d\x7d\x7d\x7b\x7d" [.bool true] =
        .error (.indexOutOfRange 1) := by
      decide +kernel
    have hcount : (Template.fields "\x7b:>3\x7d\x7b\x7b").length = 1 := by decide +kernel
    have hnames : ∀ f ∈ Template.fields "\x7b:>3\x7d\x7b\x7b" ++
        Template.fields "\x7b!r\x7d\x7d\x7d\x7b\x7d", f.name = "" := by
      decide +kernel
    have happend := (render_append _ _ _ _ hfirst).2 hnames
    rw [hcount, List.drop_succ_cons, List.drop_zero, hsecond] at happend
    exact happend

end Render
end FormatCheck
