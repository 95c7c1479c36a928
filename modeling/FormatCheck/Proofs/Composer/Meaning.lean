import FormatCheck.Proofs.Composer.Enumeration
import FormatCheck.Proofs.Template.Print
import FormatCheck.Render

/-!
# What composed fields mean

The composer writes a field from a conversion and a combination of fragments, and the template
scanner takes fields apart. They agree as long as no fragment holds a brace: whatever else the
fragments hold, the name ends at the first mark, and the specifier is all that stands between the
colon and the closing brace. A composed field has no name, so it takes the only argument there is.
-/

namespace FormatCheck

namespace Render

variable {template : String} {field : Field}

/-- A template that is one field without a name renders a value as the field does. -/
theorem renderOne_of_scan (h : Template.scan template = ([.field field], none))
    (hname : field.name = "") (v : Value) : renderOne template v = renderField field v := by
  have hposition : Numbering.undecided.resolve field.name = (.ok 0, .automatic 1) := by
    rw [hname]
    rfl
  have hrender : renderOne template v = (renderField field v).bind fun text => .ok (text ++ "") := by
    simp only [renderOne, render, h, renderSegments, hposition]
    rfl
  rw [hrender]
  cases renderField field v with
  | error e => rfl
  | ok text => simp [Except.bind]

end Render

namespace Composer

open Template (isBrace PlainField)
open Numeral (mixedDigits)

/-- No fragment of the axes holds a brace. -/
def Braceless (axes : List Axis) : Prop :=
  ∀ axis ∈ axes, ∀ fragment ∈ axis, ∀ c ∈ fragment.toList, isBrace c = false

/-- The conversions in their order, as a field has them. -/
def conversionMarks : List (Option Char) := [none, some 'r', some 's']

/-- The element at an index of the fields stands for a conversion and the combination of the digits
of its index. -/
def BuiltFrom (axes : List Axis) (n : Nat) (conversion : Option Char) (text : String) : Prop :=
  ∃ c i, n = c * (sizes axes).prod + i ∧ i < (sizes axes).prod ∧
    conversionMarks[c]? = some conversion ∧ Selects axes (mixedDigits (sizes axes) i) text

variable {axes : List Axis} {text : String}

/-- What is joined from fragments without braces has none. -/
theorem Selects.isBrace_eq_false {ds : List Nat} (h : Selects axes ds text)
    (hplain : Braceless axes) : ∀ c ∈ text.toList, isBrace c = false := by
  induction h with
  | nil =>
      exact fun c hc => absurd hc (by simp)
  | @cons axis axes d ds fragment text hfragment _ ih =>
      intro c hc
      rw [String.toList_append, List.mem_append] at hc
      rcases hc with hc | hc
      · exact hplain axis List.mem_cons_self fragment (List.mem_of_getElem? hfragment) c hc
      · exact ih (fun axis' haxis => hplain axis' (List.mem_cons_of_mem axis haxis)) c hc

/-- The field of a conversion and a specifier. -/
def plainField (conversion : Option Char) (text : String)
    (htext : ∀ c ∈ text.toList, isBrace c = false) : PlainField where
  name := ""
  conversion := conversion
  spec? := some text
  name_plain := List.forall_mem_nil _
  spec_plain := by
    rintro spec ⟨rfl⟩
    exact htext

theorem ofList_text_plainField (conversion : Option Char)
    (htext : ∀ c ∈ text.toList, isBrace c = false) {spelling : String}
    (hspelling : spelling.toList = (conversion.map fun c => ['!', c]).getD []) :
    String.ofList (plainField conversion text htext).text =
      "\x7b" ++ spelling ++ ":" ++ text ++ "\x7d" := by
  apply String.toList_inj.mp
  simp [plainField, PlainField.text, PlainField.afterName, PlainField.specText, hspelling]

/-- A conversion is spelled as a field writes it. -/
theorem exists_conversionMark {c : Nat} {spelling : String} (h : conversions[c]? = some spelling) :
    ∃ conversion, conversionMarks[c]? = some conversion ∧
      spelling.toList = (conversion.map fun c => ['!', c]).getD [] := by
  match c, h with
  | 0, h =>
      cases h
      exact ⟨none, rfl, rfl⟩
  | 1, h =>
      cases h
      exact ⟨some 'r', rfl, rfl⟩
  | 2, h =>
      cases h
      exact ⟨some 's', rfl, rfl⟩

/-- Every conversion that is composed makes a value of every value. -/
theorem exists_convertField {c : Nat} {conversion : Option Char}
    (h : conversionMarks[c]? = some conversion) (field : Field)
    (hfield : field.conversion = conversion) (v : Value) :
    ∃ w, Render.convertField v field = .ok w := by
  have hmem : conversion ∈ conversionMarks := List.mem_of_getElem? h
  simp only [conversionMarks, List.mem_cons, List.not_mem_nil, or_false] at hmem
  rcases hmem with rfl | rfl | rfl
  · exact ⟨v, by simp [Render.convertField, hfield]⟩
  · exact ⟨.str v.repr, by simp [Render.convertField, Render.convert, hfield]⟩
  · exact ⟨.str v.toText, by simp [Render.convertField, Render.convert, hfield]⟩

/-- An element of the fields is written as the field it is built from. -/
theorem exists_builtFrom (hplain : Braceless axes) {n : Nat} {format : String}
    (hformat : (fields axes)[n]? = some format) :
    ∃ conversion text, ∃ htext : ∀ c ∈ text.toList, isBrace c = false,
      BuiltFrom axes n conversion text ∧
        format = String.ofList (plainField conversion text htext).text := by
  have hn : n < 3 * (sizes axes).prod := by
    rw [← length_fields]
    exact (List.getElem?_eq_some_iff.mp hformat).1
  have hi : n % (sizes axes).prod < (sizes axes).prod :=
    Nat.mod_lt n (Nat.pos_of_ne_zero fun hzero => by simp [hzero] at hn)
  have hcut : n = n / (sizes axes).prod * (sizes axes).prod + n % (sizes axes).prod :=
    (Nat.div_add_mod' n _).symm
  rw [hcut, getElem?_fields hi] at hformat
  rcases Option.bind_eq_some_iff.mp hformat with ⟨spelling, hspelling, hrest⟩
  rcases Option.map_eq_some_iff.mp hrest with ⟨text, htext, rfl⟩
  rcases exists_conversionMark hspelling with ⟨conversion, hmark, hspelled⟩
  have hselects := selects_of_getElem? htext
  exact ⟨conversion, text, hselects.isBrace_eq_false hplain,
    ⟨_, _, hcut, hi, hmark, hselects⟩, (ofList_text_plainField conversion _ hspelled).symm⟩

/-- Every composed field is scanned as that one field: without a name, with the conversion and the
combination it was built from, and not nested. So it renders every value as the combination renders
the converted value, or fails as that does. -/
theorem fields_scanned (hplain : Braceless axes) {n : Nat} {format : String}
    (hformat : (fields axes)[n]? = some format) :
    ∃ conversion text, BuiltFrom axes n conversion text ∧
      Template.scan format = ([.field ⟨"", conversion, text, false⟩], none) ∧
      ∀ v, ∃ w, Render.convertField v ⟨"", conversion, text, false⟩ = .ok w ∧
        Render.renderOne format v = Render.formatValue w text := by
  rcases exists_builtFrom hplain hformat with ⟨conversion, text, htext, hbuilt, rfl⟩
  have hscan : Template.scan (String.ofList (plainField conversion text htext).text) =
      ([.field ⟨"", conversion, text, false⟩], none) := (plainField conversion text htext).scan_text
  refine ⟨conversion, text, hbuilt, hscan, ?_⟩
  intro v
  rcases hbuilt with ⟨c, _, _, _, hmark, _⟩
  rcases exists_convertField hmark ⟨"", conversion, text, false⟩ rfl v with ⟨w, hw⟩
  refine ⟨w, hw, ?_⟩
  rw [Render.renderOne_of_scan hscan rfl, Render.renderField, hw]
  rfl

/-- Fragments that read like marks, conversions and colons. -/
def misleadingFragments : List Axis := [[":", "!s"], ["", "!r:"]]

/-- A composed field whose specifier begins like a conversion, at the last place of the second
conversion: it is refused as that specifier of the converted value is. -/
theorem fields_scanned_misleadingFragments :
    Braceless misleadingFragments ∧ (fields misleadingFragments)[7]? = some "\x7b!r:!s!r:\x7d" ∧
      Template.scan "\x7b!r:!s!r:\x7d" = ([.field ⟨"", some 'r', "!s!r:", false⟩], none) ∧
      Render.renderOne "\x7b!r:!s!r:\x7d" (.str "a") = Render.formatValue (.str "'a'") "!s!r:" := by
  have hplain : Braceless misleadingFragments := by
    simp [Braceless, misleadingFragments, isBrace]
  have hformat : (fields misleadingFragments)[7]? = some "\x7b!r:!s!r:\x7d" := by
    decide +kernel
  rcases fields_scanned hplain hformat with
    ⟨conversion, text, ⟨c, i, hindex, hi, hmark, hselects⟩, hscan, hrender⟩
  have hsize : (sizes misleadingFragments).prod = 4 := rfl
  rw [hsize] at hindex hi
  obtain ⟨rfl, rfl⟩ : c = 1 ∧ i = 3 := by omega
  obtain rfl : some 'r' = conversion := Option.some.inj hmark
  have hlast : Selects misleadingFragments [1, 1] ("!s" ++ ("!r:" ++ "")) :=
    .cons rfl (.cons rfl .nil)
  obtain rfl : text = "!s!r:" := hselects.unique hlast
  rcases hrender (.str "a") with ⟨w, hw, hvalue⟩
  obtain rfl : .str "'a'" = w := Except.ok.inj hw
  exact ⟨hplain, hformat, hscan, hvalue⟩

end Composer
end FormatCheck
