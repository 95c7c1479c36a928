import FormatCheck.Expectation
import Mathlib.Data.List.Forall2

/-!
# Values that render alike

A signed and an unsigned integer of the same number are different values, yet the renderer looks
only at the number. `Value.Alike` relates the values it cannot tell apart, and `render_congr` says
that arguments related one by one give the same outcome under every template, rejections included.
-/

namespace FormatCheck

/-- The same value, or the same number in either variant of integers. -/
inductive Value.Alike : Value → Value → Prop where
  | refl (v : Value) : Alike v v
  | integer {v w : Value} (hv : v.kind = .int) (hw : w.kind = .int)
      (h : v.integer? = w.integer?) : Alike v w

namespace Value

variable {v w : Value}

theorem Alike.kind_eq (h : Alike v w) : v.kind = w.kind := by
  cases h with
  | refl =>
      rfl
  | integer hv hw _ =>
      exact hv.trans hw.symm

/-- The texts of an integral value are those of its number. -/
theorem reprWith_integer (hv : v.kind = .int) (asciiOnly : Bool) :
    some (v.reprWith asciiOnly) = v.integer?.map Numeral.showInt := by
  cases v with
  | int i =>
      rfl
  | uint n =>
      -- A natural number shows no sign, so its two numerals are one.
      have hsign : ¬ (n.toNat : Int) < 0 := Int.not_lt.mpr (Int.natCast_nonneg _)
      have hshow : Numeral.showInt n.toNat = Numeral.showNat n.toNat := by
        simp only [Numeral.showInt, Numeral.showNat, Numeral.signedDecimal, if_neg hsign,
          Int.natAbs_natCast]
      simp [reprWith, integer?, hshow]
  | bool b => cases hv
  | float x => cases hv
  | str s => cases hv

theorem Alike.reprWith_eq (h : Alike v w) (asciiOnly : Bool) :
    v.reprWith asciiOnly = w.reprWith asciiOnly := by
  cases h with
  | refl =>
      rfl
  | integer hv hw hz =>
      have hsome : some (v.reprWith asciiOnly) = some (w.reprWith asciiOnly) := by
        rw [reprWith_integer hv, reprWith_integer hw, hz]
      exact Option.some.inj hsome

theorem toText_of_kind_int (hv : v.kind = .int) : v.toText = v.repr := by
  cases v with
  | str s => cases hv
  | _ => rfl

theorem Alike.toText_eq (h : Alike v w) : v.toText = w.toText := by
  cases h with
  | refl =>
      rfl
  | integer hv hw hz =>
      have hrepr : v.repr = w.repr := (Alike.integer hv hw hz).reprWith_eq false
      rw [toText_of_kind_int hv, toText_of_kind_int hw, hrepr]

end Value

namespace Render

open Value (Alike)

variable {v w : Value}

/-! ## One value -/

/-- An integral value is rendered as its number. -/
theorem formatWith_integer {z : Int} (hv : v.kind = .int) (hz : v.integer? = some z) (spec : Spec) :
    formatWith v spec = formatInteger z spec .int := by
  cases v with
  | int i =>
      cases hz
      rfl
  | uint n =>
      cases hz
      rfl
  | bool b => cases hv
  | float x => cases hv
  | str s => cases hv

theorem formatWith_congr (h : Alike v w) (spec : Spec) : formatWith v spec = formatWith w spec := by
  cases h with
  | refl =>
      rfl
  | integer hv hw hz =>
      cases hz' : w.integer? with
      | none =>
          -- A value of kind `int` always has a number.
          cases w <;> simp [Value.integer?, Value.kind] at hz' hw
      | some z =>
          rw [formatWith_integer hv (hz.trans hz'), formatWith_integer hw hz']

theorem formatValue_congr (h : Alike v w) (spec : String) :
    formatValue v spec = formatValue w spec := by
  have hwith : formatWith v = formatWith w := funext (formatWith_congr h)
  simp only [formatValue, h.toText_eq, h.kind_eq, hwith]

/-- A conversion makes a string of a value, hence the same string of values that render alike. -/
theorem convert_congr (h : Alike v w) (conversion : Char) :
    convert v conversion = convert w conversion := by
  have hrepr : v.repr = w.repr := h.reprWith_eq false
  have hascii : v.ascii = w.ascii := h.reprWith_eq true
  simp only [convert, hrepr, hascii, h.toText_eq]

theorem renderField_congr (h : Alike v w) (field : Field) :
    renderField field v = renderField field w := by
  cases hconversion : field.conversion with
  | none =>
      have hformat := formatValue_congr h field.spec
      simp only [renderField, convertField, hconversion, bind, Except.bind, hformat]
  | some c =>
      simp only [renderField, convertField, hconversion, convert_congr h c]

/-! ## Templates -/

section Templates

variable {args args' : List Value}

/-- A position is free on both sides, or taken on both sides by values that are related. -/
theorem getElem?_congr {R : Value → Value → Prop} (h : List.Forall₂ R args args') (index : Nat) :
    (args[index]? = none ∧ args'[index]? = none) ∨
      ∃ v w, args[index]? = some v ∧ args'[index]? = some w ∧ R v w := by
  induction h generalizing index with
  | nil =>
      exact Or.inl ⟨rfl, rfl⟩
  | cons hv _ ih =>
      cases index with
      | zero => exact Or.inr ⟨_, _, rfl, rfl, hv⟩
      | succ n => simpa using ih n

theorem renderSegments_congr (h : List.Forall₂ Alike args args') (failure : Option FormatError)
    (segments : List Segment) (numbering : Numbering) :
    renderSegments args failure numbering segments =
      renderSegments args' failure numbering segments := by
  -- The numbering that a segment leaves behind depends on the names alone, so it is the same on both
  -- sides, but it changes from segment to segment.
  induction segments generalizing numbering with
  | nil =>
      rfl
  | cons segment segments ih =>
      cases segment with
      | literal text =>
          simp only [renderSegments, ih]
      | field field =>
          rcases hresolve : numbering.resolve field.name with ⟨e | index, numbering'⟩
          · simp only [renderSegments, hresolve]
          · -- The position is taken on both sides or on neither.
            rcases getElem?_congr h index with ⟨hv, hw⟩ | ⟨v, w, hv, hw, hvw⟩
            · simp only [renderSegments, hresolve, argument, hv, hw, bind, Except.bind]
            · have hfield : renderField field v = renderField field w := renderField_congr hvw field
              simp only [renderSegments, hresolve, argument, hv, hw, ih, bind, Except.bind, hfield]

/-- Arguments that are alike one by one render alike under every template. -/
theorem render_congr (h : List.Forall₂ Alike args args') (template : String) :
    render template args = render template args' := by
  exact renderSegments_congr h _ _ _

end Templates

end Render

/-- What a subject should print depends on a value only up to the variant of an integer. -/
theorem expectedRendering_congr {v w : Value} (h : Value.Alike v w) (format : String) :
    expectedRendering format v = expectedRendering format w := by
  have hrender : Render.renderOne format v = Render.renderOne format w :=
    Render.render_congr (List.Forall₂.cons h List.Forall₂.nil) format
  simp only [expectedRendering, hrender, h.kind_eq]

end FormatCheck
