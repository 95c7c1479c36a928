import FormatCheck.Composer
import FormatCheck.Proofs.Numeral.MixedRadix

/-!
# The order of combinations

Combining axes enumerates the choices of one fragment per axis as a counter does: the positions of
the fragments are the digits of the index in the mixed radix of the axis lengths, the first axis
most significant. `Selects` says which text a choice of positions has, and
`combinations_enumerated` that every index holds the choice of its digits, every choice stands at
one index, and later indices hold later choices.

Fragments may repeat and may be empty, so that different choices can spell one text: what stands at
one index alone is the choice, not its text. An axis without fragments leaves no choice at all.
-/

namespace FormatCheck
namespace Composer

open Numeral (mixedDigits ofMixedDigits AreMixedDigits)

/-! ## Combinations -/

/-- The numbers of fragments of the axes. -/
def sizes (axes : List Axis) : List Nat := axes.map List.length

/-- The fragments at these positions, one of each axis, make up the text in axis order. -/
inductive Selects : List Axis → List Nat → String → Prop where
  | nil : Selects [] [] ""
  | cons {axis : Axis} {axes : List Axis} {d : Nat} {ds : List Nat} {fragment text : String} :
      axis[d]? = some fragment → Selects axes ds text →
      Selects (axis :: axes) (d :: ds) (fragment ++ text)

variable {axes : List Axis} {ys : List String} {ds : List Nat} {i : Nat}

/-- The positions of a choice are digits. -/
theorem Selects.areMixedDigits {text : String} (h : Selects axes ds text) :
    AreMixedDigits (sizes axes) ds := by
  induction h with
  | nil =>
      exact .nil
  | cons hfragment _ ih =>
      exact .cons (List.getElem?_eq_some_iff.mp hfragment).1 ih

theorem length_pairs (xs ys : List String) : (pairs xs ys).length = xs.length * ys.length := by
  simp [pairs, List.length_flatMap, List.map_const', List.sum_replicate]

/-- The texts of the first list vary slowest. -/
theorem getElem?_pairs (xs : List String) (hi : i < ys.length) (c : Nat) :
    (pairs xs ys)[c * ys.length + i]? =
      xs[c]?.bind fun x => ys[i]?.map fun y => x ++ y := by
  induction xs generalizing c with
  | nil =>
      rfl
  | cons x xs ih =>
      have hsplit : pairs (x :: xs) ys = ys.map (x ++ ·) ++ pairs xs ys := by
        simp [pairs]
      have hlength : (ys.map (x ++ ·)).length = ys.length := List.length_map _
      cases c with
      | zero =>
          -- The first block is that of the first text.
          have hfirst : 0 * ys.length + i < (ys.map (x ++ ·)).length := by
            rw [hlength]
            omega
          rw [hsplit, List.getElem?_append_left hfirst, List.getElem?_map]
          simp
      | succ c =>
          have hlater : (ys.map (x ++ ·)).length ≤ (c + 1) * ys.length + i := by
            rw [hlength, Nat.succ_mul]
            omega
          have hindex : (c + 1) * ys.length + i - ys.length = c * ys.length + i := by
            rw [Nat.succ_mul]
            omega
          rw [hsplit, List.getElem?_append_right hlater, hlength, hindex, ih,
            List.getElem?_cons_succ]

theorem length_combinations (axes : List Axis) :
    (combinations axes).length = (sizes axes).prod := by
  induction axes with
  | nil =>
      rfl
  | cons axis axes ih =>
      calc
        (combinations (axis :: axes)).length = axis.length * (combinations axes).length :=
          length_pairs axis (combinations axes)
        _ = axis.length * (sizes axes).prod := by
              rw [ih]
        _ = (sizes (axis :: axes)).prod := List.prod_cons.symm

/-- What stands at an index is the choice of its digits. -/
theorem selects_of_getElem? {text : String} (h : (combinations axes)[i]? = some text) :
    Selects axes (mixedDigits (sizes axes) i) text := by
  have hlt : i < (sizes axes).prod := by
    rw [← length_combinations]
    exact (List.getElem?_eq_some_iff.mp h).1
  induction axes generalizing i text with
  | nil =>
      obtain rfl : i = 0 := Nat.lt_one_iff.mp hlt
      cases h
      exact .nil
  | cons axis axes ih =>
      have hlt' : i < axis.length * (sizes axes).prod := hlt
      have hrest : i % (sizes axes).prod < (sizes axes).prod :=
        Nat.mod_lt i (Numeral.prod_pos_of_lt hlt')
      -- The index is cut into the position on the first axis and the index of the rest.
      have hcut : (pairs axis (combinations axes))[i / (sizes axes).prod * (sizes axes).prod
          + i % (sizes axes).prod]? = some text := by
        rw [Nat.div_add_mod']
        exact h
      rw [← length_combinations, getElem?_pairs axis (by rwa [length_combinations])] at hcut
      rw [length_combinations] at hcut
      rcases Option.bind_eq_some_iff.mp hcut with ⟨fragment, hfragment, htext⟩
      rcases Option.map_eq_some_iff.mp htext with ⟨others, hothers, rfl⟩
      have hdigits : mixedDigits (sizes (axis :: axes)) i =
          i / (sizes axes).prod :: mixedDigits (sizes axes) (i % (sizes axes).prod) :=
        Numeral.mixedDigits_cons hlt'
      rw [hdigits]
      exact .cons hfragment (ih hothers hrest)

/-- The positions of a choice determine its text. -/
theorem Selects.unique {text text' : String} (h : Selects axes ds text)
    (h' : Selects axes ds text') : text = text' := by
  induction h generalizing text' with
  | nil =>
      cases h'
      rfl
  | cons hfragment _ ih =>
      cases h' with
      | cons hfragment' hrest =>
          have heq := Option.some.inj (hfragment.symm.trans hfragment')
          rw [heq, ih hrest]

theorem getElem?_combinations_eq_some_iff {text : String} :
    (combinations axes)[i]? = some text ↔
      i < (sizes axes).prod ∧ Selects axes (mixedDigits (sizes axes) i) text := by
  constructor
  · intro h
    refine ⟨?_, selects_of_getElem? h⟩
    rw [← length_combinations]
    exact (List.getElem?_eq_some_iff.mp h).1
  · rintro ⟨hlt, hselects⟩
    rw [← length_combinations] at hlt
    have hsome : (combinations axes)[i]? = some (combinations axes)[i] :=
      List.getElem?_eq_getElem hlt
    rw [hsome, (selects_of_getElem? hsome).unique hselects]

/-! ## Fields -/

theorem length_fields (axes : List Axis) : (fields axes).length = 3 * (sizes axes).prod := by
  simp [fields, length_pairs, length_combinations, conversions]

/-- The conversions vary slowest of all. -/
theorem getElem?_fields (hi : i < (sizes axes).prod) (c : Nat) :
    (fields axes)[c * (sizes axes).prod + i]? =
      conversions[c]?.bind fun conversion => (combinations axes)[i]?.map fun text =>
        "\x7b" ++ conversion ++ ":" ++ text ++ "\x7d" := by
  have hlength : ((combinations axes).map (":" ++ ·)).length = (sizes axes).prod := by
    rw [List.length_map, length_combinations]
  have hpairs := getElem?_pairs conversions (hlength.symm ▸ hi) c
  rw [hlength] at hpairs
  rw [fields, List.getElem?_map, hpairs]
  cases conversions[c]? with
  | none => rfl
  | some conversion =>
      cases h : (combinations axes)[i]? with
      | none => simp [h]
      | some text => simp [h, String.append_assoc]

/-- Combining axes enumerates the choices of one fragment per axis: there are as many combinations
as the product of the axis lengths, the one at an index is the choice of the digits of the index,
every choice has one index, and the choices come in lexicographic order. The fields are three such
enumerations, one for each conversion, in braces and behind a colon. -/
theorem combinations_enumerated (axes : List Axis) :
    ((combinations axes).length = (sizes axes).prod ∧
      (∀ i text, (combinations axes)[i]? = some text ↔
        i < (sizes axes).prod ∧ Selects axes (mixedDigits (sizes axes) i) text) ∧
      (∀ ds text, Selects axes ds text →
        ∃! i, i < (sizes axes).prod ∧ mixedDigits (sizes axes) i = ds) ∧
      ∀ i j, i < j → j < (sizes axes).prod →
        mixedDigits (sizes axes) i < mixedDigits (sizes axes) j) ∧
    (fields axes).length = 3 * (sizes axes).prod ∧
      ∀ c i, i < (sizes axes).prod →
        (fields axes)[c * (sizes axes).prod + i]? =
          conversions[c]?.bind fun conversion => (combinations axes)[i]?.map fun text =>
            "\x7b" ++ conversion ++ ":" ++ text ++ "\x7d" := by
  refine ⟨⟨length_combinations axes, fun _ _ => getElem?_combinations_eq_some_iff, ?_,
    fun _ _ => Numeral.mixedDigits_lt_mixedDigits⟩, length_fields axes,
    fun c _ hi => getElem?_fields hi c⟩
  intro ds text hselects
  have hdigits := hselects.areMixedDigits
  refine ⟨ofMixedDigits (sizes axes) ds, ⟨Numeral.ofMixedDigits_lt hdigits,
    Numeral.mixedDigits_ofMixedDigits hdigits⟩, ?_⟩
  rintro i ⟨hi, rfl⟩
  exact (Numeral.ofMixedDigits_mixedDigits hi).symm

/-- Two axes whose combinations spell one text twice, at the first index and at the last. -/
def repeatedFragments : List Axis := [["0", ""], ["", "0"]]

theorem combinations_enumerated_repeatedFragments :
    (combinations repeatedFragments).length = 4 ∧
      (3 < 4 ∧ Selects repeatedFragments [1, 1] "0") ∧
      (∃! i, i < 4 ∧ mixedDigits (sizes repeatedFragments) i = [0, 0]) ∧
      mixedDigits (sizes repeatedFragments) 0 < mixedDigits (sizes repeatedFragments) 3 ∧
      (fields repeatedFragments)[1 * 4 + 3]? = some "\x7b!r:0\x7d" := by
  rcases combinations_enumerated repeatedFragments with
    ⟨⟨hlength, hat, hchoice, horder⟩, _, hfields⟩
  have hlast : (combinations repeatedFragments)[3]? = some "0" := by decide
  have hfirst : Selects repeatedFragments [0, 0] ("0" ++ ("" ++ "")) := .cons rfl (.cons rfl .nil)
  exact ⟨hlength, (hat 3 "0").mp hlast, hchoice [0, 0] _ hfirst,
    horder 0 3 (by decide) (by decide), (hfields 1 3 (by decide)).trans (by decide)⟩

end Composer
end FormatCheck
