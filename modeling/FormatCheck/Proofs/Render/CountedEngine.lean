import FormatCheck.Proofs.Render.Counters
import FormatCheck.Proofs.Render.Lengths
import FormatCheck.Proofs.Render.Rejection

/-!
# Rendering templates in signed 64-bit numbers

`renderOne` lays out numbers with unbounded integers. `renderOneCounted` goes the same way with
`layoutCounted?` in that place, and has a third outcome where the layout of a number leaves the range
of its counters. Elsewhere its outcome is that of `renderOne` (`Computes`), so that it rejects values
of one kind alike.

The third outcome depends on the value: under a width of `2 ^ 63` and a little more the lengths of
some numbers can be subtracted from the width and those of longer ones cannot. Widths below that are
safe for all numbers (`renderOneCounted_sameRejection`).
-/

namespace FormatCheck
namespace Render

/-! ## The engine -/

/-- Why nothing is rendered: a rejection, or a computation out of range. -/
inductive Failure where
  | rejected (e : FormatError)
  | outOfRange
  deriving DecidableEq, Repr

/-- The layout of an accepted number with counters; `text` is what is shown of a string. -/
def layOut (v : Value) (spec : Spec) (text : List Char) : Except Failure (List Char) :=
  match partsOf? v spec with
  | none => .ok text
  | some parts =>
    match layoutCounted? parts spec (groupSizeOf spec) with
    | some text => .ok text
    | none => .error .outOfRange

/-- Renders a value under a parsed specifier. -/
def formatWithCounted (v : Value) (spec : Spec) : Except Failure (List Char) := do
  let text ← (formatWith v spec).mapError .rejected
  layOut v spec text

def formatValueCounted (v : Value) (spec : String) : Except Failure String :=
  if spec.isEmpty then .ok v.toText
  else do
    let parsed ← (Spec.parse v.kind.name spec).mapError .rejected
    let text ← formatWithCounted v parsed
    .ok (String.ofList text)

def renderFieldCounted (field : Field) (v : Value) : Except Failure String := do
  let v ← (convertField v field).mapError .rejected
  if field.nested then .error (.rejected (.nestedField field.spec))
  else formatValueCounted v field.spec

def renderSegmentsCounted (args : List Value) (failure : Option FormatError)
    (numbering : Numbering) : List Segment → Except Failure String
  | [] => match failure with
    | some e => .error (.rejected e)
    | none => .ok ""
  | .literal text :: segments => do
    let rest ← renderSegmentsCounted args failure numbering segments
    .ok (text ++ rest)
  | .field field :: segments =>
    match numbering.resolve field.name with
    | (.error e, _) => .error (.rejected e)
    | (.ok index, numbering) => do
      let v ← (argument args index).mapError .rejected
      let text ← renderFieldCounted field v
      let rest ← renderSegmentsCounted args failure numbering segments
      .ok (text ++ rest)

def renderOneCounted (template : String) (v : Value) : Except Failure String :=
  let (segments, failure) := Template.scan template
  renderSegmentsCounted [v] failure .undecided segments

/-! ## Outcomes in range -/

/-- The outcome with counters is out of range, or it is the outcome without them. -/
inductive Computes {α : Type} : Except Failure α → Except FormatError α → Prop where
  | outOfRange (y : Except FormatError α) : Computes (.error .outOfRange) y
  | inRange (y : Except FormatError α) : Computes (y.mapError .rejected) y

namespace Computes

variable {α β : Type} {x : Except Failure α} {y : Except FormatError α}

theorem bind (h : Computes x y) {f : α → Except Failure β} {g : α → Except FormatError β}
    (hnext : ∀ a, y = .ok a → Computes (f a) (g a)) : Computes (x >>= f) (y >>= g) := by
  cases h with
  | outOfRange => exact .outOfRange _
  | inRange =>
      cases y with
      | error e => exact .inRange (.error e)
      | ok a => exact hnext a rfl

/-- Outcomes in range reject what those without counters reject. -/
theorem sameRejection {γ : Type} {x' : Except Failure γ} {y' : Except FormatError γ}
    (h : Computes x y) (h' : Computes x' y') (hsame : SameRejection y y')
    (hx : x ≠ .error .outOfRange) (hx' : x' ≠ .error .outOfRange) : SameRejection x x' := by
  cases h with
  | outOfRange => exact absurd rfl hx
  | inRange =>
      cases h' with
      | outOfRange => exact absurd rfl hx'
      | inRange =>
          cases hsame with
          | ok a b => exact .ok a b
          | error e => exact .error _

end Computes

variable {v w : Value} {spec : Spec} {parts : NumberParts}

/-! ## Agreement with the engine -/

/-- What is laid out has fewer digits than `2 ^ 63`, since these were counted. -/
theorem length_digits_lt_of_layoutCounted? {groupSize : Nat} {text : List Char}
    (h : layoutCounted? parts spec groupSize = some text) : parts.digits.length < 2 ^ 63 := by
  simp only [layoutCounted?, Option.bind_eq_bind, Option.bind_eq_some_iff,
    Counter.counter?_eq_some_iff] at h
  rcases h with ⟨_, _, _, _, shown, hshown, _, ⟨hlength, _⟩, _⟩
  unfold groupedCounted? at hshown
  split at hshown
  · cases hshown
    exact Int.ofNat_lt.mp hlength.2
  · split at hshown
    · next hnil =>
      rw [hnil]
      decide
    · simp only [Option.bind_eq_bind, Option.bind_eq_some_iff, Counter.counter?_eq_some_iff]
        at hshown
      rcases hshown with ⟨_, ⟨hcount, _⟩, _⟩
      exact Int.ofNat_lt.mp hcount.2

theorem layoutNumber_of_layoutCounted? {groupSize : Nat} {text : List Char}
    (h : layoutCounted? parts spec groupSize = some text) :
    text = layoutNumber parts spec groupSize :=
  ((layoutCounted?_eq_some_iff (length_digits_lt_of_layoutCounted? h)).mp h).2

theorem partsOf?_of_kind_str (hv : v.kind = .str) (spec : Spec) : partsOf? v spec = none := by
  cases v with
  | str s =>
      unfold partsOf?
      split <;> rfl
  | _ => cases hv

theorem layOut_of_kind_str (hv : v.kind = .str) (spec : Spec) (text : List Char) :
    layOut v spec text = .ok text := by
  rw [layOut, partsOf?_of_kind_str hv]

theorem computes_layOut {text : List Char} (h : formatWith v spec = .ok text) :
    Computes (layOut v spec text) (.ok text) := by
  by_cases hv : v.kind = .str
  · rw [layOut_of_kind_str hv]
    exact .inRange (.ok text)
  · rcases exists_parts_of_formatWith hv h with ⟨parts, hparts, _, htext⟩
    rw [layOut, hparts]
    dsimp only
    split
    · next laid hlaid =>
      rw [layoutNumber_of_layoutCounted? hlaid, ← htext]
      exact .inRange (.ok text)
    · exact .outOfRange _

theorem computes_formatWith (v : Value) (spec : Spec) :
    Computes (formatWithCounted v spec) (formatWith v spec) := by
  unfold formatWithCounted
  cases h : formatWith v spec with
  | error e => exact .inRange (.error e)
  | ok text => exact computes_layOut h

theorem computes_formatValue (v : Value) (spec : String) :
    Computes (formatValueCounted v spec) (formatValue v spec) := by
  unfold formatValueCounted formatValue
  split
  · exact .inRange (.ok v.toText)
  · refine (Computes.inRange (Spec.parse v.kind.name spec)).bind fun parsed _ => ?_
    refine (computes_formatWith v parsed).bind fun text _ => ?_
    exact .inRange (.ok (String.ofList text))

theorem computes_renderField (field : Field) (v : Value) :
    Computes (renderFieldCounted field v) (renderField field v) := by
  unfold renderFieldCounted renderField
  refine (Computes.inRange (convertField v field)).bind fun v' _ => ?_
  split
  · exact .inRange (.error (.nestedField field.spec))
  · exact computes_formatValue v' field.spec

theorem computes_renderSegments (args : List Value) (failure : Option FormatError)
    (segments : List Segment) (numbering : Numbering) :
    Computes (renderSegmentsCounted args failure numbering segments)
      (renderSegments args failure numbering segments) := by
  induction segments generalizing numbering with
  | nil =>
      cases failure with
      | none => exact .inRange (.ok "")
      | some e => exact .inRange (.error e)
  | cons segment segments ih =>
      cases segment with
      | literal text =>
          refine (ih numbering).bind fun rest _ => ?_
          exact .inRange (.ok (text ++ rest))
      | field field =>
          rcases hresolve : numbering.resolve field.name with ⟨e | index, numbering'⟩
          · simp only [renderSegmentsCounted, renderSegments, hresolve]
            exact .inRange (.error e)
          · simp only [renderSegmentsCounted, renderSegments, hresolve]
            refine (Computes.inRange (argument args index)).bind fun v _ => ?_
            refine (computes_renderField field v).bind fun text _ => ?_
            refine (ih numbering').bind fun rest _ => ?_
            exact .inRange (.ok (text ++ rest))

theorem computes_renderOne (template : String) (v : Value) :
    Computes (renderOneCounted template v) (renderOne template v) :=
  computes_renderSegments [v] _ _ _

/-! ## Widths that are safe -/

/-- The specifier of the field, if it is one for numbers of this kind, asks for a width below
`2 ^ 63` and for a precision that is rendered. What a conversion gives is a string. -/
def SafeField (kind : ValueKind) (field : Field) : Prop :=
  kind ≠ .str → field.conversion = none →
    ∀ spec, Spec.parse kind.name field.spec = .ok spec →
      (∀ w ∈ spec.width, w < 2 ^ 63) ∧ ∀ p ∈ spec.precision, p ≤ 65535

/-- A number is laid out in range under a width below `2 ^ 63`. -/
theorem formatWithCounted_ne_outOfRange {typeName text : String}
    (hspec : Spec.parse typeName text = .ok spec)
    (hsafe : v.kind ≠ .str →
      (∀ w ∈ spec.width, w < 2 ^ 63) ∧ ∀ p ∈ spec.precision, p ≤ 65535) :
    formatWithCounted v spec ≠ .error .outOfRange := by
  unfold formatWithCounted
  cases h : formatWith v spec with
  | error e => nofun
  | ok text =>
      change layOut v spec text ≠ _
      by_cases hv : v.kind = .str
      · rw [layOut_of_kind_str hv]
        nofun
      · rcases exists_parts_of_formatWith hv h with ⟨parts, hparts, hshows, _⟩
        rcases hsafe hv with ⟨hwidth, hprecision⟩
        have hlaid := (layoutCounted?_eq_layoutNumber_iff (width_lt_of_parse hspec)
          (naturalLength_lt hshows hprecision)).mpr fun w hw => Or.inl (hwidth w hw)
        simp only [layOut, hparts, hlaid]
        nofun

theorem bind_ne_outOfRange {α β : Type} {x : Except Failure α} (hx : x ≠ .error .outOfRange)
    {f : α → Except Failure β} (hf : ∀ a, x = .ok a → f a ≠ .error .outOfRange) :
    (x >>= f) ≠ .error .outOfRange := by
  cases x with
  | error e =>
      intro h
      cases h
      exact hx rfl
  | ok a => exact hf a rfl

theorem mapError_ne_outOfRange {α : Type} (y : Except FormatError α) :
    y.mapError Failure.rejected ≠ .error .outOfRange := by
  cases y <;> nofun

theorem mapError_eq_ok {α : Type} {y : Except FormatError α} {a : α}
    (h : y.mapError Failure.rejected = .ok a) : y = .ok a := by
  cases y with
  | error e => cases h
  | ok b => exact congrArg Except.ok (Except.ok.inj h)

theorem formatValueCounted_ne_outOfRange {text : String}
    (hsafe : v.kind ≠ .str → ∀ spec, Spec.parse v.kind.name text = .ok spec →
      (∀ w ∈ spec.width, w < 2 ^ 63) ∧ ∀ p ∈ spec.precision, p ≤ 65535) :
    formatValueCounted v text ≠ .error .outOfRange := by
  unfold formatValueCounted
  split
  · nofun
  · refine bind_ne_outOfRange (mapError_ne_outOfRange _) fun spec hspec => ?_
    have hparsed := mapError_eq_ok hspec
    refine bind_ne_outOfRange ?_ fun text _ => nofun
    exact formatWithCounted_ne_outOfRange hparsed fun hv => hsafe hv spec hparsed

theorem renderFieldCounted_ne_outOfRange {field : Field} (hsafe : SafeField v.kind field) :
    renderFieldCounted field v ≠ .error .outOfRange := by
  unfold renderFieldCounted
  refine bind_ne_outOfRange (mapError_ne_outOfRange _) fun v' hv' => ?_
  have hconverted := mapError_eq_ok hv'
  split
  · nofun
  · apply formatValueCounted_ne_outOfRange
    intro hkind
    cases hconversion : field.conversion with
    | none =>
        rw [convertField, hconversion] at hconverted
        cases hconverted
        exact hsafe hkind hconversion
    | some c =>
        rw [convertField, hconversion] at hconverted
        exact absurd (kind_of_convert hconverted) hkind

theorem mem_of_argument {args : List Value} {index : Nat} (h : argument args index = .ok v) :
    v ∈ args := by
  unfold argument at h
  split at h
  · next hv =>
    cases h
    exact List.mem_of_getElem? hv
  · cases h

theorem renderSegmentsCounted_ne_outOfRange {args : List Value} (failure : Option FormatError)
    {segments : List Segment}
    (hsafe : ∀ v ∈ args, ∀ field, .field field ∈ segments → SafeField v.kind field)
    (numbering : Numbering) :
    renderSegmentsCounted args failure numbering segments ≠ .error .outOfRange := by
  induction segments generalizing numbering with
  | nil => cases failure <;> nofun
  | cons segment segments ih =>
      have hrest := ih fun v hv field hfield =>
        hsafe v hv field (List.mem_cons_of_mem segment hfield)
      cases segment with
      | literal text => exact bind_ne_outOfRange (hrest numbering) fun rest _ => nofun
      | field field =>
          rcases hresolve : numbering.resolve field.name with ⟨e | index, numbering'⟩
          · simp only [renderSegmentsCounted, hresolve]
            nofun
          · simp only [renderSegmentsCounted, hresolve]
            refine bind_ne_outOfRange (mapError_ne_outOfRange _) fun v hv => ?_
            have hmem : v ∈ args := mem_of_argument (mapError_eq_ok hv)
            have hfield := hsafe v hmem field List.mem_cons_self
            refine bind_ne_outOfRange (renderFieldCounted_ne_outOfRange hfield) fun text _ => ?_
            exact bind_ne_outOfRange (hrest numbering') fun rest _ => nofun

/-! ## Templates -/

/-- A template rejects values of one kind alike, as far as they are rendered in range, and they are
where no field asks for a width of `2 ^ 63` or more. Only integers in a template that asks for the
character of its argument are left out. -/
theorem renderOneCounted_sameRejection (template : String) (v w : Value) (hkind : v.kind = w.kind)
    (hcharacter : v.kind = .int →
      ∀ field ∈ Template.fields template, ¬ field.AsksCharacter) :
    (renderOneCounted template v ≠ .error .outOfRange →
      renderOneCounted template w ≠ .error .outOfRange →
        SameRejection (renderOneCounted template v) (renderOneCounted template w)) ∧
      ((∀ field ∈ Template.fields template, SafeField v.kind field) →
        renderOneCounted template v ≠ .error .outOfRange ∧
          renderOneCounted template w ≠ .error .outOfRange) := by
  constructor
  · exact (computes_renderOne template v).sameRejection (computes_renderOne template w)
      (renderOne_sameRejection template v w hkind hcharacter)
  · intro hsafe
    have hinRange (u : Value) (hu : u.kind = v.kind) :
        renderOneCounted template u ≠ .error .outOfRange := by
      apply renderSegmentsCounted_ne_outOfRange
      intro u' hu' field hfield
      rw [List.mem_singleton.mp hu', hu]
      exact hsafe field (Template.mem_fields.mpr hfield)
    exact ⟨hinRange v rfl, hinRange w hkind.symm⟩

/-- A field that asks for a character after a conversion is rejected whatever the integer. -/
theorem renderOneCounted_sameRejection_convertedCharacter :
    (Value.int (-1)).kind = (Value.uint 300).kind ∧
      renderOneCounted "\x7b0:+12,d\x7d \x7b0!r:c\x7d" (.int (-1)) =
        .error (.rejected (.unknownCode 'c' .str)) ∧
      SameRejection (renderOneCounted "\x7b0:+12,d\x7d \x7b0!r:c\x7d" (.int (-1)))
        (renderOneCounted "\x7b0:+12,d\x7d \x7b0!r:c\x7d" (.uint 300)) := by
  have hfields : Template.fields "\x7b0:+12,d\x7d \x7b0!r:c\x7d" =
      [⟨"0", none, "+12,d", false⟩, ⟨"0", some 'r', "c", false⟩] := by
    decide +kernel
  have hspec : Spec.parse "int" "+12,d" =
      .ok { sign := some .always, width := some 12, grouping := some .comma, code := some 'd' } := by
    decide +kernel
  have hmem {field : Field} (hfield : field ∈ Template.fields "\x7b0:+12,d\x7d \x7b0!r:c\x7d") :
      field = ⟨"0", none, "+12,d", false⟩ ∨ field.conversion = some 'r' := by
    rw [hfields] at hfield
    simp only [List.mem_cons, List.not_mem_nil, or_false] at hfield
    exact hfield.imp_right fun h => by rw [h]
  have hcharacter : ∀ field ∈ Template.fields "\x7b0:+12,d\x7d \x7b0!r:c\x7d",
      ¬ field.AsksCharacter := by
    rintro field hfield ⟨hconversion, spec, hparse, hcode⟩
    rcases hmem hfield with rfl | hr
    · obtain rfl := Except.ok.inj (hspec.symm.trans hparse)
      cases hcode
    · rw [hconversion] at hr
      cases hr
  have hsafe : ∀ field ∈ Template.fields "\x7b0:+12,d\x7d \x7b0!r:c\x7d",
      SafeField (Value.int (-1)).kind field := by
    intro field hfield _ hconversion spec hparse
    rcases hmem hfield with rfl | hr
    · obtain rfl := Except.ok.inj (hspec.symm.trans hparse)
      exact ⟨by rintro w ⟨⟩; decide, nofun⟩
    · rw [hconversion] at hr
      cases hr
  rcases renderOneCounted_sameRejection _ (.int (-1)) (.uint 300) rfl fun _ => hcharacter with
    ⟨hsame, hinRange⟩
  rcases hinRange hsafe with ⟨hleft, hright⟩
  exact ⟨rfl, by decide +kernel, hsame hleft hright⟩

/-- Under a width of `2 ^ 63 + 1` one digit can be subtracted from it, and two cannot. -/
theorem not_forall_sameRejection :
    (renderOneCounted "\x7b:9223372036854775809\x7d" (.int 5) = .ok "5" ∧
        renderOneCounted "\x7b:9223372036854775809\x7d" (.int 55) = .error .outOfRange) ∧
      ¬∀ (template : String) (v w : Value), v.kind = w.kind →
        (v.kind = .int → ∀ field ∈ Template.fields template, ¬ field.AsksCharacter) →
          (∀ field ∈ Template.fields template, ∀ spec,
            Spec.parse v.kind.name field.spec = .ok spec → ∀ p ∈ spec.precision, p ≤ 65535) →
            SameRejection (renderOneCounted template v) (renderOneCounted template w) := by
  have hshort : renderOneCounted "\x7b:9223372036854775809\x7d" (.int 5) = .ok "5" := by
    decide +kernel
  have hlong : renderOneCounted "\x7b:9223372036854775809\x7d" (.int 55) =
      .error .outOfRange := by
    decide +kernel
  refine ⟨⟨hshort, hlong⟩, ?_⟩
  intro hall
  have hfields : Template.fields "\x7b:9223372036854775809\x7d" =
      [⟨"", none, "9223372036854775809", false⟩] := by
    decide +kernel
  have hspec : Spec.parse "int" "9223372036854775809" = .ok { width := some (2 ^ 63 + 1) } := by
    decide +kernel
  have hparsed : ∀ field ∈ Template.fields "\x7b:9223372036854775809\x7d", ∀ spec,
      Spec.parse "int" field.spec = .ok spec → spec = { width := some (2 ^ 63 + 1) } := by
    intro field hfield spec hparse
    rw [hfields, List.mem_singleton] at hfield
    subst hfield
    exact (Except.ok.inj (hspec.symm.trans hparse)).symm
  have hcharacter : ∀ field ∈ Template.fields "\x7b:9223372036854775809\x7d",
      ¬ field.AsksCharacter := by
    rintro field hfield ⟨_, spec, hparse, hcode⟩
    rw [hparsed field hfield spec hparse] at hcode
    cases hcode
  have hsame := hall "\x7b:9223372036854775809\x7d" (.int 5) (.int 55) rfl
    (fun _ => hcharacter) fun field hfield spec hparse => by
      rw [hparsed field hfield spec hparse]
      nofun
  rw [hshort, hlong] at hsame
  cases hsame

end Render
end FormatCheck
