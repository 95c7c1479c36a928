import FormatCheck.Proofs.Render.Alike
import FormatCheck.Proofs.Template.Scan

/-!
# Rejections depend on kinds

Whether a template is rejected, and for what, can be told from the kinds of its arguments:
`SameRejection` relates the outcomes for two lists of arguments, and it is carried along the way of a
value through the engine, from the renderers of the kinds over the field to the whole template.

There is one exception. An integer shown as the character of its code point is rejected if there is
no such character, which depends on the number. A boolean is `0` or `1`, both of them characters, so
it is no exception.
-/

namespace FormatCheck

/-- Both succeed, or both fail with the same error. -/
inductive SameRejection {ε α β : Type} : Except ε α → Except ε β → Prop where
  | ok (a : α) (b : β) : SameRejection (.ok a) (.ok b)
  | error (e : ε) : SameRejection (.error e) (.error e)

namespace SameRejection

variable {ε α β γ δ : Type} {x : Except ε α} {y : Except ε β}

theorem refl (x : Except ε α) : SameRejection x x := by
  cases x with
  | error e => exact .error e
  | ok a => exact .ok a a

/-- Steps after outcomes with the same rejection matter only where both succeed. -/
theorem bind (h : SameRejection x y) {f : α → Except ε γ} {g : β → Except ε δ}
    (hnext : ∀ a b, x = .ok a → y = .ok b → SameRejection (f a) (g b)) :
    SameRejection (x >>= f) (y >>= g) := by
  cases h with
  | ok a b => exact hnext a b rfl rfl
  | error e => exact .error e

end SameRejection

/-- The field shows its argument as it is, under the presentation type of characters. -/
def Field.AsksCharacter (field : Field) : Prop :=
  field.conversion = none ∧
    ∃ spec, Spec.parse ValueKind.int.name field.spec = .ok spec ∧ spec.code = some 'c'

/-- The arguments have the same kinds one by one. -/
def SameKinds (args args' : List Value) : Prop :=
  List.Forall₂ (fun v w => v.kind = w.kind) args args'

namespace Render

variable {v w : Value} {spec : Spec}

/-! ## Kinds -/

theorem formatCodePoint_sameRejection {z z' : Int}
    (h : (charOfCode? z).isSome = (charOfCode? z').isSome) (spec : Spec) :
    SameRejection (formatCodePoint z spec) (formatCodePoint z' spec) := by
  unfold formatCodePoint
  split_ifs with hsign halternate
  · exact .error _
  · exact .error _
  · cases hz : charOfCode? z with
    | none =>
        have hz' : charOfCode? z' = none := by simpa [hz] using h.symm
        rw [hz']
        exact .error _
    | some c =>
        have hsome : (charOfCode? z').isSome = true := by rw [← h, hz, Option.isSome_some]
        rcases Option.isSome_iff_exists.mp hsome with ⟨c', hz'⟩
        rw [hz']
        exact .ok _ _

theorem formatInteger_sameRejection {z z' : Int} (kind : ValueKind)
    (h : spec.code = some 'c' → (charOfCode? z).isSome = (charOfCode? z').isSome) :
    SameRejection (formatInteger z spec kind) (formatInteger z' spec kind) := by
  -- All checks but that of the code point are made on the specifier.
  refine (SameRejection.refl (spec.checkGrouping (some (spec.code.getD 'd')))).bind ?_
  intro _ _ _ _
  split_ifs with hfloat hinteger hprecision hcharacter
  · exact .ok _ _
  · exact .error _
  · have hcode : spec.code = some 'c' := by
      cases hcode : spec.code with
      | none => simp [hcode] at hcharacter
      | some c => simpa [hcode] using hcharacter
    exact formatCodePoint_sameRejection (h hcode) spec
  · exact .ok _ _
  · exact .error _

theorem formatFloat_sameRejection (x y : Binary64) (spec : Spec) :
    SameRejection (formatFloat x spec) (formatFloat y spec) := by
  refine (SameRejection.refl (spec.checkGrouping spec.code)).bind ?_
  intro _ _ _ _
  cases spec.code with
  | none => exact .ok _ _
  | some code =>
      by_cases hcode : code ∈ floatCodes
      · simp only [if_pos hcode]
        exact .ok _ _
      · simp only [if_neg hcode]
        exact .error _

theorem formatText_sameRejection (s t : List Char) (spec : Spec) :
    SameRejection (formatText s spec) (formatText t spec) := by
  refine (SameRejection.refl (spec.checkGrouping (some (spec.code.getD 's')))).bind ?_
  intro _ _ _ _
  dsimp only
  split_ifs
  · exact .error _
  · exact .error _
  · exact .error _
  · exact .error _
  · exact .error _
  · exact .ok _ _

theorem exists_integer (h : v.kind = .int) : ∃ z, v.integer? = some z := by
  cases v with
  | int i => exact ⟨_, rfl⟩
  | uint n => exact ⟨_, rfl⟩
  | bool b => cases h
  | float x => cases h
  | str s => cases h

theorem formatWith_sameRejection (hkind : v.kind = w.kind)
    (hcharacter : v.kind = .int → spec.code ≠ some 'c') :
    SameRejection (formatWith v spec) (formatWith w spec) := by
  by_cases hint : v.kind = .int
  · rcases exists_integer hint with ⟨z, hz⟩
    rcases exists_integer (hkind ▸ hint) with ⟨z', hz'⟩
    rw [formatWith_integer hint hz, formatWith_integer (hkind ▸ hint) hz']
    exact formatInteger_sameRejection .int fun hcode => absurd hcode (hcharacter hint)
  · cases v with
    | bool b =>
        cases w with
        | bool b' =>
            -- Either boolean is the code point of a character.
            have hcodePoint : ∀ b : Bool, (charOfCode? b.toInt).isSome = true := by decide
            exact formatInteger_sameRejection .bool fun _ => by rw [hcodePoint, hcodePoint]
        | _ => cases hkind
    | int i => exact absurd rfl hint
    | uint n => exact absurd rfl hint
    | float x =>
        cases w with
        | float y => exact formatFloat_sameRejection x y spec
        | _ => cases hkind
    | str s =>
        cases w with
        | str t => exact formatText_sameRejection s.toList t.toList spec
        | _ => cases hkind

/-! ## Fields -/

theorem formatValue_sameRejection {text : String} (hkind : v.kind = w.kind)
    (hcharacter : v.kind = .int →
      ∀ spec, Spec.parse ValueKind.int.name text = .ok spec → spec.code ≠ some 'c') :
    SameRejection (formatValue v text) (formatValue w text) := by
  unfold formatValue
  split_ifs
  · exact .ok _ _
  · rw [← hkind]
    refine (SameRejection.refl (Spec.parse v.kind.name text)).bind ?_
    intro spec spec' hspec hspec'
    obtain rfl : spec = spec' := Except.ok.inj (hspec.symm.trans hspec')
    have hcode : v.kind = .int → spec.code ≠ some 'c' := by
      intro hint
      exact hcharacter hint spec (by rw [← hint, hspec])
    refine (formatWith_sameRejection hkind hcode).bind ?_
    intro _ _ _ _
    exact .ok _ _

theorem convert_sameRejection (v w : Value) (conversion : Char) :
    SameRejection (convert v conversion) (convert w conversion) := by
  unfold convert
  split_ifs
  · exact .ok _ _
  · exact .ok _ _
  · exact .ok _ _
  · exact .error _

theorem kind_of_convert {conversion : Char} {v' : Value} (h : convert v conversion = .ok v') :
    v'.kind = .str := by
  unfold convert at h
  split_ifs at h <;> cases h <;> rfl

theorem renderField_sameRejection {field : Field} (hkind : v.kind = w.kind)
    (hcharacter : v.kind = .int → ¬ field.AsksCharacter) :
    SameRejection (renderField field v) (renderField field w) := by
  have hrendered : ∀ v' w' : Value, v'.kind = w'.kind →
      (v'.kind = .int → ¬ field.AsksCharacter ∧ field.conversion = none) →
        SameRejection
          (if field.nested then Except.error (.nestedField field.spec)
            else formatValue v' field.spec)
          (if field.nested then Except.error (.nestedField field.spec)
            else formatValue w' field.spec) := by
    intro v' w' hkind' hplain
    split_ifs
    · exact .error _
    · refine formatValue_sameRejection hkind' ?_
      intro hint spec hspec hcode
      rcases hplain hint with ⟨hasks, hconversion⟩
      exact hasks ⟨hconversion, spec, hspec, hcode⟩
  unfold renderField convertField
  cases hconversion : field.conversion with
  | none =>
      exact hrendered v w hkind fun hint => ⟨hcharacter hint, hconversion⟩
  | some c =>
      -- What a conversion gives is a string, whatever it was.
      refine (convert_sameRejection v w c).bind ?_
      intro v' w' hv' hw'
      have hstring : v'.kind = .str := kind_of_convert hv'
      refine hrendered v' w' (hstring.trans (kind_of_convert hw').symm) ?_
      intro hint
      rw [hstring] at hint
      cases hint

/-! ## Templates -/

variable {args args' : List Value}

theorem renderSegments_sameRejection (hkinds : SameKinds args args')
    (failure : Option FormatError) {segments : List Segment}
    (hcharacter : ∀ v ∈ args, v.kind = .int →
      ∀ field, .field field ∈ segments → ¬ field.AsksCharacter) (numbering : Numbering) :
    SameRejection (renderSegments args failure numbering segments)
      (renderSegments args' failure numbering segments) := by
  induction segments generalizing numbering with
  | nil =>
      exact SameRejection.refl _
  | cons segment segments ih =>
      have hrest := ih fun v hv hint field hfield =>
        hcharacter v hv hint field (List.mem_cons_of_mem segment hfield)
      cases segment with
      | literal text =>
          refine (hrest numbering).bind ?_
          intro _ _ _ _
          exact .ok _ _
      | field field =>
          -- The numbering goes by names alone, so both sides look up the same position.
          rcases hresolve : numbering.resolve field.name with ⟨e | index, numbering'⟩
          · simp only [renderSegments, hresolve]
            exact .error e
          · simp only [renderSegments, hresolve]
            rcases getElem?_congr hkinds index with ⟨hv, hw⟩ | ⟨v, w, hv, hw, hkind⟩
            · simp only [argument, hv, hw]
              exact .error _
            · simp only [argument, hv, hw]
              have hfield : SameRejection (renderField field v) (renderField field w) :=
                renderField_sameRejection hkind fun hint =>
                  hcharacter v (List.mem_of_getElem? hv) hint field List.mem_cons_self
              refine hfield.bind ?_
              intro _ _ _ _
              refine (hrest numbering').bind ?_
              intro _ _ _ _
              exact .ok _ _

/-- A template rejects values of one kind alike: it renders both, or rejects both for the same
reason. Only integers in a template that asks for the character of its argument are left out. -/
theorem renderOne_sameRejection (template : String) (v w : Value) (hkind : v.kind = w.kind)
    (hcharacter : v.kind = .int →
      ∀ field ∈ Template.fields template, ¬ field.AsksCharacter) :
    SameRejection (renderOne template v) (renderOne template w) := by
  refine renderSegments_sameRejection (List.Forall₂.cons hkind List.Forall₂.nil) _ ?_ _
  intro u hu hint field hfield
  rw [List.mem_singleton.mp hu] at hint
  exact hcharacter hint field (Template.mem_fields.mpr hfield)

/-- The exception: not every integer is the code point of a character. -/
example : renderOne "\x7b:c\x7d" (.int 65) = .ok "A" ∧
    renderOne "\x7b:c\x7d" (.int (-1)) = .error .charOutOfRange := by
  decide +kernel

end Render
end FormatCheck
