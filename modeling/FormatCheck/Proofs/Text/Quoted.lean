import FormatCheck.Proofs.Decimal.Layout
import FormatCheck.Proofs.Json.Scalars
import FormatCheck.Value
import Mathlib.Tactic.SplitIfs

/-!
# Representations on one line

The representation of a value has no control character, whatever the value is: a quotation escapes
those of its text, and a numeral has digits, a sign, a point and an exponent mark.
-/

namespace FormatCheck

open Json (OneLine oneLine_cons oneLine_append oneLine_of_all)

/-! ## Quotations -/

namespace Text

theorem oneLine_hexText (width n : Nat) : OneLine (hexText width n) := by
  have hdigit : ∀ d < 16, ¬ (Numeral.digitChar d).toNat < 0x20 := by decide
  refine oneLine_append.mpr ⟨?_, ?_⟩
  · intro c hc
    rw [List.eq_of_mem_replicate hc]
    decide
  · intro c hc
    rcases List.mem_map.mp hc with ⟨d, hd, rfl⟩
    exact hdigit d (Numeral.lt_of_mem_digits (by decide) hd)

theorem oneLine_numericEscape (c : Char) : OneLine (numericEscape c) := by
  unfold numericEscape
  dsimp only
  split
  · exact oneLine_append (s := ['\\', 'x']).mpr ⟨oneLine_of_all (by decide), oneLine_hexText _ _⟩
  · split
    · exact oneLine_append (s := ['\\', 'u']).mpr ⟨oneLine_of_all (by decide), oneLine_hexText _ _⟩
    · exact oneLine_append (s := ['\\', 'U']).mpr ⟨oneLine_of_all (by decide), oneLine_hexText _ _⟩

/-- The characters that a quotation shows as they are include no control character. -/
theorem not_lt_of_shown {c : Char} {asciiOnly : Bool}
    (hc : (isGraphicAscii c || (!asciiOnly && isPrintable c)) = true) : ¬ c.toNat < 0x20 := by
  intro hlow
  have hgraphic : isGraphicAscii c = false := by
    simpa [isGraphicAscii, inRanges, CodeRange.contains] using
      fun h => absurd hlow (Nat.not_lt.mpr h)
  have hascii : isAscii c = true := decide_eq_true (Nat.lt_trans hlow (by decide))
  simp [isPrintable, hgraphic, hascii] at hc

theorem oneLine_quoteChar {delim : Char} (hdelim : ¬ delim.toNat < 0x20) (asciiOnly : Bool)
    (c : Char) : OneLine (quoteChar delim asciiOnly c) := by
  unfold quoteChar
  split_ifs with hback htab hfeed hreturn hend hshown
  · exact oneLine_of_all (by decide)
  · exact oneLine_of_all (by decide)
  · exact oneLine_of_all (by decide)
  · exact oneLine_of_all (by decide)
  · exact oneLine_cons.mpr ⟨by decide, oneLine_cons.mpr ⟨hend ▸ hdelim, List.forall_mem_nil _⟩⟩
  · exact oneLine_cons.mpr ⟨not_lt_of_shown hshown, List.forall_mem_nil _⟩
  · exact oneLine_numericEscape c

theorem oneLine_quoteChars (asciiOnly : Bool) (s : List Char) :
    OneLine (quoteChars asciiOnly s) := by
  have hdelim : ¬ (delimiter s).toNat < 0x20 := by
    unfold delimiter
    split <;> decide
  refine oneLine_cons.mpr ⟨hdelim, oneLine_append.mpr ⟨?_, ?_⟩⟩
  · intro c hc
    rcases List.mem_flatMap.mp hc with ⟨d, _, hd⟩
    exact oneLine_quoteChar hdelim asciiOnly d c hd
  · exact oneLine_cons.mpr ⟨hdelim, List.forall_mem_nil _⟩

end Text

/-! ## Numerals -/

theorem Decimal.Denotes.oneLine {s : List Char} {v : ℚ} (h : Denotes s v) : OneLine s := by
  have hmarks : OneLine ['.', 'e', '+', '-'] := oneLine_of_all (by decide)
  intro c hc
  rcases h.isDigit_or_mem hc with hdigit | hmark
  · have hbounds : 48 ≤ c.toNat ∧ c.toNat ≤ 57 := Char.isDigit_iff_toNat.mp hdigit
    omega
  · exact hmarks c hmark

theorem Binary.oneLine_repr (x : Binary64) : OneLine x.repr := by
  unfold Binary.repr
  split
  · exact oneLine_of_all (by decide)
  · split
    · exact oneLine_of_all (by decide)
    · exact oneLine_of_all (by decide)
  · next k _ =>
    have hdigits : OneLine (Decimal.shortestText k) := (Decimal.denotes_shortestText k).oneLine
    split
    · exact oneLine_cons.mpr ⟨by decide, hdigits⟩
    · exact hdigits

/-! ## Values -/

theorem Value.oneLine_reprWith (asciiOnly : Bool) (v : Value) :
    OneLine (v.reprWith asciiOnly).toList := by
  cases v with
  | bool b =>
      cases b with
      | false =>
          rw [Value.reprWith]
          exact oneLine_of_all (by decide)
      | true =>
          rw [Value.reprWith]
          exact oneLine_of_all (by decide)
  | int i =>
      rw [Value.reprWith, Numeral.showInt, String.toList_ofList]
      exact Json.oneLine_signedDecimal i.toInt
  | uint n =>
      rw [Value.reprWith, Numeral.showNat, String.toList_ofList]
      exact Json.oneLine_signedDecimal n.toNat
  | float x =>
      rw [Value.reprWith, String.toList_ofList]
      exact x.oneLine_repr
  | str s =>
      rw [Value.reprWith, Text.quote, String.toList_ofList]
      exact Text.oneLine_quoteChars asciiOnly s.toList

end FormatCheck
