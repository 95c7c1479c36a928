import FormatCheck.Literal
import FormatCheck.Proofs.Decimal.Layout
import FormatCheck.Proofs.Outcome
import FormatCheck.Proofs.Text.Encoding

/-!
# Literals read back

Encoding and decoding are inverse to each other on every type whose literal is not a single
character. A value comes back as itself, up to the choice between the two kinds of integers, which
the type makes; a value that was decoded has a literal, and that literal is decoded as the value.

The float sections need no hypothesis about printing or parsing: the shortest digits read back
because the search accepts no others, and single precision adds only that widening is exact.
-/

namespace FormatCheck
namespace Literal

open Decimal (shortestText denotes_shortestText readScientific?_shortestText
  fitsOrderBound_binary32 fitsOrderBound_binary64)
open Format (embeds_binary32_binary64)

variable {type : SemanticType}

/-! ## What comes back -/

/-- `w` is the integer `z` in the variant of the type's signedness. -/
def IsVariant (type : SemanticType) (z : Int) (w : Value) : Prop :=
  w.integer? = some z ∧
    ((type.category = .signedInt ∧ ∃ i, w = .int i) ∨
      (type.category = .unsignedInt ∧ ∃ n, w = .uint n))

/-- `w` is `v` as the type reads it: an integer in the type's variant, anything else itself. -/
def ReadsAs (type : SemanticType) : Value → Value → Prop
  | .int i, w => IsVariant type i.toInt w
  | .uint n, w => IsVariant type n.toNat w
  | v, w => w = v

/-! ## Integers -/

theorem checkRange_eq_ok {z : Int} (h : checkRange type z = .ok ()) :
    ∃ range, type.intRange? = some range ∧ range.contains z = true := by
  unfold checkRange at h
  cases hr : type.intRange? with
  | none => simp [hr] at h
  | some range =>
      cases hz : range.contains z with
      | false => simp [hr, hz] at h
      | true => exact ⟨range, rfl, hz⟩

/-- The range of a signed type lies within 64 bits. -/
theorem le_of_checkRange_signed {z : Int} (hc : type.category = .signedInt)
    (h : checkRange type z = .ok ()) : -(2 ^ 63) ≤ z ∧ z < 2 ^ 63 := by
  rcases checkRange_eq_ok h with ⟨range, hrange, hz⟩
  simp only [IntRange.contains, Bool.and_eq_true, decide_eq_true_eq] at hz
  -- Four types are of the category, and each has its own range.
  cases type <;> simp [SemanticType.category] at hc <;>
    (obtain rfl := Option.some.inj hrange; simp [IntRange.signed] at hz; omega)

/-- The range of an unsigned type lies within 64 bits. -/
theorem le_of_checkRange_unsigned {z : Int} (hc : type.category = .unsignedInt)
    (h : checkRange type z = .ok ()) : 0 ≤ z ∧ z < 2 ^ 64 := by
  rcases checkRange_eq_ok h with ⟨range, hrange, hz⟩
  simp only [IntRange.contains, Bool.and_eq_true, decide_eq_true_eq] at hz
  cases type <;> simp [SemanticType.category] at hc <;>
    (obtain rfl := Option.some.inj hrange; simp [IntRange.unsigned] at hz; omega)

theorem readInteger?_signedDecimal {z : Int} (hlow : -(2 ^ 63) ≤ z) (hhigh : z < 2 ^ 64) :
    readInteger? (Numeral.signedDecimal z) = some z := by
  have hrange : (IntRange.signed 128).contains z = true := by
    simp only [IntRange.signed, IntRange.contains, Bool.and_eq_true]
    norm_num
    omega
  simp [readInteger?, Numeral.integer?_signedDecimal, hrange]

theorem toNat_lt_of_mem_signedDecimal {z : Int} {c : Char} (hc : c ∈ Numeral.signedDecimal z) :
    c.toNat < 128 := by
  unfold Numeral.signedDecimal at hc
  split at hc
  · rcases List.mem_cons.mp hc with rfl | hmem
    · decide
    · exact Decimal.toNat_lt_of_isDigit (Numeral.isDigit_of_mem_decimal hmem)
  · exact Decimal.toNat_lt_of_isDigit (Numeral.isDigit_of_mem_decimal hc)

/-! ## Floats -/

/-- A text that a float's magnitude may be written as: ASCII, and no sign at its front. -/
structure Unsigned (s : List Char) : Prop where
  ascii : ∀ c ∈ s, c.toNat < 128
  no_minus : s.head? ≠ some '-'
  no_plus : s.head? ≠ some '+'

theorem unsigned_shortestText {F : Format} (k : Fin F.overflowRank) :
    Unsigned (shortestText k) := by
  rcases (denotes_shortestText k).exists_digit with ⟨c, t, hs, hc⟩
  refine ⟨fun _ => (denotes_shortestText k).toNat_lt, ?_, ?_⟩
  · rw [hs, List.head?_cons]
    rintro ⟨⟩
    exact absurd hc (by decide)
  · rw [hs, List.head?_cons]
    rintro ⟨⟩
    exact absurd hc (by decide)

/-- The digits of a magnitude are none of the words that stand for other magnitudes. -/
theorem readMagnitude?_shortestText {F : Format} (type : SemanticType)
    (k : Fin F.overflowRank) :
    readMagnitude? type (shortestText k) = (Decimal.readScientific? (shortestText k)).map fun x =>
      if type = .float32 then (x.magnitude .binary32).convert else x.magnitude .binary64 := by
  rcases (denotes_shortestText k).exists_digit with ⟨c, t, hs, hc⟩
  have hnan : shortestText k ≠ ['n', 'a', 'n'] := by
    rw [hs]
    rintro ⟨⟩
    exact absurd hc (by decide)
  have hinf : shortestText k ≠ ['i', 'n', 'f'] := by
    rw [hs]
    rintro ⟨⟩
    exact absurd hc (by decide)
  rw [readMagnitude?, if_neg hnan, if_neg hinf]

/-- The text of a magnitude, where it has one, is read as the magnitude. -/
theorem readMagnitude?_magnitudeText {x : Binary64} {s : List Char}
    (h : magnitudeText type x = .ok s) :
    readMagnitude? type s = some x.magnitude ∧ Unsigned s := by
  unfold magnitudeText at h
  cases hx : x.magnitude with
  | nan =>
      rw [hx] at h
      rcases Except.ok.inj h with rfl
      exact ⟨rfl, by simp, by simp, by simp⟩
  | infinite =>
      rw [hx] at h
      rcases Except.ok.inj h with rfl
      exact ⟨rfl, by simp, by simp, by simp⟩
  | finite k =>
      simp only [hx] at h
      by_cases htype : type = .float32
      · -- The digits are those of the narrowed float, so they read back as that float, and widening
        -- it gives the value.
        rw [if_pos htype] at h
        split at h
        · next k' hnarrow =>
          split at h
          · next hwide =>
            rcases Except.ok.inj h with rfl
            rcases readScientific?_shortestText fitsOrderBound_binary32 k' with ⟨y, hy, hmag⟩
            refine ⟨?_, unsigned_shortestText k'⟩
            rw [readMagnitude?_shortestText, hy, Option.map_some, if_pos htype, hmag, ← hnarrow,
              hwide]
          · cases h
        · cases h
      · rw [if_neg htype] at h
        rcases Except.ok.inj h with rfl
        rcases readScientific?_shortestText fitsOrderBound_binary64 k with ⟨y, hy, hmag⟩
        refine ⟨?_, unsigned_shortestText k⟩
        rw [readMagnitude?_shortestText, hy, Option.map_some, if_neg htype, hmag]

theorem readFloat?_minus (type : SemanticType) (s : List Char) :
    readFloat? type ('-' :: s) = (readMagnitude? type s).map fun m => ⟨true, m⟩ := rfl

theorem readFloat?_unsigned {s : List Char} (hs : Unsigned s) :
    readFloat? type s = (readMagnitude? type s).map fun m => ⟨false, m⟩ := by
  unfold readFloat?
  split
  next negative body hmatch =>
  split at hmatch
  · exact absurd rfl hs.no_minus
  · exact absurd rfl hs.no_plus
  · rcases Prod.mk.inj hmatch with ⟨rfl, rfl⟩
    rfl

/-- The literal of a float is read as the float, sign included. -/
theorem readFloat?_floatText {x : Binary64} {s : List Char} (h : floatText type x = .ok s) :
    readFloat? type s = some x ∧ ∀ c ∈ s, c.toNat < 128 := by
  rcases exists_of_bind_eq_ok h with ⟨digits, hm, hs⟩
  rcases Except.ok.inj hs with rfl
  rcases readMagnitude?_magnitudeText hm with ⟨hread, hdigits⟩
  rcases x with ⟨negative, magnitude⟩
  cases negative with
  | false =>
      -- The digits carry no sign of their own, so none is read.
      exact ⟨by simp [readFloat?_unsigned hdigits, hread], by simpa using hdigits.ascii⟩
  | true =>
      refine ⟨by simp [readFloat?_minus, hread], ?_⟩
      intro c hc
      rcases List.mem_cons.mp (by simpa using hc) with rfl | hmem
      · decide
      · exact hdigits.ascii c hmem

/-- A magnitude that was read has a text. -/
theorem exists_magnitudeText {s : List Char} {m : Magnitude .binary64} (negative : Bool)
    (h : readMagnitude? type s = some m) : ∃ t, magnitudeText type ⟨negative, m⟩ = .ok t := by
  unfold magnitudeText
  cases m with
  | nan => exact ⟨_, rfl⟩
  | infinite => exact ⟨_, rfl⟩
  | finite k =>
      simp only
      by_cases htype : type = .float32
      · have hnarrow : ∃ m' : Magnitude .binary32, m'.convert = Magnitude.finite k := by
          unfold readMagnitude? at h
          split at h
          · cases h
          · split at h
            · cases h
            · rcases Option.map_eq_some_iff.mp h with ⟨y, _, hy⟩
              exact ⟨_, by simpa [htype] using hy⟩
        rcases hnarrow with ⟨m', hm'⟩
        -- Narrowing undoes the widening that the reader ended with.
        have hback : (Magnitude.finite k).convert = m' := by
          rw [← hm', Magnitude.convert_convert embeds_binary32_binary64]
        cases m' with
        | nan => cases hm'
        | infinite => cases hm'
        | finite k' => simp [htype, hback, hm']
      · simp [htype]

/-- A float that was read has a literal. -/
theorem exists_floatText {s : List Char} {x : Binary64} (h : readFloat? type s = some x) :
    ∃ t, floatText type x = .ok t := by
  have hread : ∃ body, readMagnitude? type body = some x.magnitude := by
    unfold readFloat? at h
    simp only at h
    rcases Option.map_eq_some_iff.mp h with ⟨m, hm, rfl⟩
    exact ⟨_, hm⟩
  rcases hread with ⟨body, hbody⟩
  rcases exists_magnitudeText x.negative hbody with ⟨t, ht⟩
  exact ⟨_, by rw [floatText, ht]; rfl⟩

/-! ## Encoding, case by case -/

/-- What the encoder writes for a type whose literal is not a single character: the text itself, the
name of a boolean, the numeral of an integer in range, the text of a float. -/
inductive Encoding (type : SemanticType) : Value → Bytes → Prop
  | text (hc : type.category = .text) (s : String) : Encoding type (.str s) (Text.utf8 s)
  | bool (hc : type.category = .bool) (x : Bool) :
      Encoding type (.bool x) (asciiBytes (if x then "true".toList else "false".toList))
  | int (hc : type.category = .signedInt ∨ type.category = .unsignedInt) (i : Int64)
      (hr : checkRange type i.toInt = .ok ()) :
      Encoding type (.int i) (asciiBytes (Numeral.signedDecimal i.toInt))
  | uint (hc : type.category = .signedInt ∨ type.category = .unsignedInt) (n : UInt64)
      (hr : checkRange type n.toNat = .ok ()) :
      Encoding type (.uint n) (asciiBytes (Numeral.signedDecimal n.toNat))
  | float (hc : type.category = .float) {x : Binary64} {s : List Char}
      (hs : floatText type x = .ok s) : Encoding type (.float x) (asciiBytes s)

/-- The encoder writes nothing else. -/
theorem encoding_of_encode (hc : type.category ≠ .char) {v : Value} {b : Bytes}
    (hstr : type.isCharacterEncoded = true → v.kind = .str) (h : encode type v = .ok b) :
    Encoding type v b := by
  -- A number of a character type would be one byte, so such a type is left to strings.
  by_cases hchar : type.isCharacterEncoded = true
  · -- The only such type of more than one character is that of character arrays.
    have htext : type.category = .text := by
      cases type <;> simp_all [SemanticType.category, SemanticType.isCharacterEncoded]
    cases v with
    | str s =>
        have hb : encode type (.str s) = .ok (Text.utf8 s) := by simp [encode, hchar]
        rcases Except.ok.inj (hb.symm.trans h) with rfl
        exact .text htext s
    | bool _ => cases hstr hchar
    | int _ => cases hstr hchar
    | uint _ => cases hstr hchar
    | float _ => cases hstr hchar
  · unfold encode at h
    simp only [hchar] at h
    cases hcat : type.category <;> cases v <;> simp only [hcat, if_false, reduceCtorEq] at h
    case neg.bool.bool x =>
      rcases Except.ok.inj h with rfl
      exact .bool hcat x
    case neg.signedInt.int i =>
      rcases exists_of_bind_eq_ok h with ⟨_, hr, hb⟩
      rcases Except.ok.inj hb with rfl
      exact .int (Or.inl hcat) i hr
    case neg.signedInt.uint n =>
      rcases exists_of_bind_eq_ok h with ⟨_, hr, hb⟩
      rcases Except.ok.inj hb with rfl
      exact .uint (Or.inl hcat) n hr
    case neg.unsignedInt.int i =>
      rcases exists_of_bind_eq_ok h with ⟨_, hr, hb⟩
      rcases Except.ok.inj hb with rfl
      exact .int (Or.inr hcat) i hr
    case neg.unsignedInt.uint n =>
      rcases exists_of_bind_eq_ok h with ⟨_, hr, hb⟩
      rcases Except.ok.inj hb with rfl
      exact .uint (Or.inr hcat) n hr
    case neg.float.float x =>
      rcases exists_of_map_eq_ok h with ⟨s, hs, rfl⟩
      exact .float hcat hs
    case neg.text.str s =>
      rcases Except.ok.inj h with rfl
      exact .text hcat s

/-! ## Decoding, case by case -/

theorem ofUtf8?_asciiBytes {s : List Char} (hs : ∀ c ∈ s, c.toNat < 128) :
    Text.ofUtf8? (asciiBytes s) = some (String.ofList s) := by
  rw [asciiBytes, ← Text.utf8_ofList_ascii hs, Text.ofUtf8?_utf8]

/-- An integer in the variant of the type. -/
def variant (type : SemanticType) (z : Int) : Value :=
  if type.category = .signedInt then .int (Int64.ofInt z) else .uint (UInt64.ofNat z.toNat)

/-- The variant of an integer in the range of its type holds exactly that integer. -/
theorem isVariant_variant (hc : type.category = .signedInt ∨ type.category = .unsignedInt) {z : Int}
    (hr : checkRange type z = .ok ()) : IsVariant type z (variant type z) := by
  rcases hc with hc | hc
  · rcases le_of_checkRange_signed hc hr with ⟨hlow, hhigh⟩
    rw [variant, if_pos hc]
    refine ⟨?_, Or.inl ⟨hc, _, rfl⟩⟩
    rw [Value.integer?, Int64.toInt_ofInt_of_le hlow hhigh]
  · rcases le_of_checkRange_unsigned hc hr with ⟨hlow, hhigh⟩
    rw [variant, if_neg (by simp [hc])]
    refine ⟨?_, Or.inr ⟨hc, _, rfl⟩⟩
    rw [Value.integer?, UInt64.toNat_ofNat_of_lt' (by simp [UInt64.size]; omega),
      Int.toNat_of_nonneg hlow]

/-- A text that is read as an integer is decoded as that integer, if its type has room for it. -/
theorem decode_of_readInteger? (hc : type.category = .signedInt ∨ type.category = .unsignedInt)
    {literal : Bytes} {text : String} {z : Int} (htext : Text.ofUtf8? literal = some text)
    (hread : readInteger? text.toList = some z) :
    decode type literal = (checkRange type z).map fun _ => variant type z := by
  rcases hc with hc | hc
  · simp [decode, variant, hc, htext, hread]
  · simp [decode, variant, hc, htext, hread]

/-- An integer comes back in the variant of the type. -/
theorem decode_integer (hc : type.category = .signedInt ∨ type.category = .unsignedInt) {z : Int}
    (hr : checkRange type z = .ok ()) :
    ∃ w, decode type (asciiBytes (Numeral.signedDecimal z)) = .ok w ∧ IsVariant type z w := by
  have htext : Text.ofUtf8? (asciiBytes (Numeral.signedDecimal z)) = _ :=
    ofUtf8?_asciiBytes fun _ => toNat_lt_of_mem_signedDecimal
  have hbounds : -(2 ^ 63) ≤ z ∧ z < 2 ^ 64 := by
    rcases hc with hc | hc
    · have h64 := le_of_checkRange_signed hc hr
      omega
    · have h64 := le_of_checkRange_unsigned hc hr
      omega
  have hread : readInteger? (String.ofList (Numeral.signedDecimal z)).toList = some z := by
    rw [String.toList_ofList]
    exact readInteger?_signedDecimal hbounds.1 hbounds.2
  refine ⟨variant type z, ?_, isVariant_variant hc hr⟩
  rw [decode_of_readInteger? hc htext hread, hr]
  rfl

/-- Every literal that is written is read as the value it was written for. -/
theorem Encoding.decode {v : Value} {b : Bytes} (h : Encoding type v b) :
    ∃ w, Literal.decode type b = .ok w ∧ ReadsAs type v w := by
  cases h with
  | text hc s => exact ⟨_, by simp [Literal.decode, hc, Text.ofUtf8?_utf8], rfl⟩
  | bool hc x =>
      have htext : Text.ofUtf8? (asciiBytes (if x then "true".toList else "false".toList)) =
          some (if x then "true" else "false") := by
        cases x with
        | false => exact ofUtf8?_asciiBytes (s := "false".toList) (by simp)
        | true => exact ofUtf8?_asciiBytes (s := "true".toList) (by simp)
      have hread : readBool? (if x then "true" else "false") = some x := by
        cases x <;> decide
      refine ⟨.bool x, ?_, rfl⟩
      simp only [Literal.decode, hc, htext, hread, reduceCtorEq, if_false]
  | int hc i hr => exact decode_integer hc hr
  | uint hc n hr => exact decode_integer hc hr
  | float hc hs =>
      rcases readFloat?_floatText hs with ⟨hread, hascii⟩
      exact ⟨_, by simp [Literal.decode, hc, ofUtf8?_asciiBytes hascii, hread], rfl⟩

/-- What the reader yields for such a type: a value with a literal, integers in the variant of the
type. -/
inductive Decoded (type : SemanticType) : Value → Prop
  | text (hc : type.category = .text) (s : String) : Decoded type (.str s)
  | bool (hc : type.category = .bool) (x : Bool) : Decoded type (.bool x)
  | int (hc : type.category = .signedInt) (i : Int64) (hr : checkRange type i.toInt = .ok ()) :
      Decoded type (.int i)
  | uint (hc : type.category = .unsignedInt) (n : UInt64) (hr : checkRange type n.toNat = .ok ()) :
      Decoded type (.uint n)
  | float (hc : type.category = .float) {x : Binary64} {s : List Char}
      (hs : floatText type x = .ok s) : Decoded type (.float x)

theorem decoded_of_decode (hc : type.category ≠ .char) {b : Bytes} {v : Value}
    (h : decode type b = .ok v) : Decoded type v := by
  unfold decode at h
  simp only [hc, if_false] at h
  cases htext : Text.ofUtf8? b with
  | none => simp [htext] at h
  | some text =>
      simp only [htext] at h
      cases hcat : type.category with
      | char => exact absurd hcat hc
      | text =>
          simp only [hcat] at h
          rcases Except.ok.inj h with rfl
          exact .text hcat text
      | bool =>
          simp only [hcat] at h
          split at h
          · rcases Except.ok.inj h with rfl
            exact .bool hcat _
          · cases h
      | signedInt =>
          simp only [hcat] at h
          split at h
          · next z _ =>
            rcases exists_of_map_eq_ok h with ⟨_, hr, rfl⟩
            rcases le_of_checkRange_signed hcat hr with ⟨hlow, hhigh⟩
            refine .int hcat _ ?_
            rwa [Int64.toInt_ofInt_of_le hlow hhigh]
          · cases h
      | unsignedInt =>
          simp only [hcat] at h
          split at h
          · next z _ =>
            rcases exists_of_map_eq_ok h with ⟨_, hr, rfl⟩
            rcases le_of_checkRange_unsigned hcat hr with ⟨hlow, hhigh⟩
            refine .uint hcat _ ?_
            rwa [UInt64.toNat_ofNat_of_lt' (by simp [UInt64.size]; omega),
              Int.toNat_of_nonneg hlow]
          · cases h
      | float =>
          simp only [hcat] at h
          split at h
          · next x hx =>
            rcases Except.ok.inj h with rfl
            rcases exists_floatText hx with ⟨t, ht⟩
            exact .float hcat ht
          · cases h

theorem not_isCharacterEncoded (hchar : type.category ≠ .char) (htext : type.category ≠ .text) :
    type.isCharacterEncoded = false := by
  cases type <;> simp_all [SemanticType.category, SemanticType.isCharacterEncoded]

theorem Decoded.not_isCharacterEncoded {v : Value} (h : Decoded type v) (hkind : v.kind ≠ .str) :
    type.isCharacterEncoded = false := by
  cases h with
  | text _ _ => exact absurd rfl hkind
  | bool hc _ => exact Literal.not_isCharacterEncoded (by simp [hc]) (by simp [hc])
  | int hc _ _ => exact Literal.not_isCharacterEncoded (by simp [hc]) (by simp [hc])
  | uint hc _ _ => exact Literal.not_isCharacterEncoded (by simp [hc]) (by simp [hc])
  | float hc _ => exact Literal.not_isCharacterEncoded (by simp [hc]) (by simp [hc])

theorem Decoded.kind_eq_str {v : Value} (h : Decoded type v)
    (hchar : type.isCharacterEncoded = true) : v.kind = .str := by
  by_contra hkind
  simp [h.not_isCharacterEncoded hkind] at hchar

/-- A value that was decoded has a literal. -/
theorem Decoded.exists_encode {v : Value} (h : Decoded type v) : ∃ c, encode type v = .ok c := by
  have hchar : v.kind ≠ .str → type.isCharacterEncoded = false := h.not_isCharacterEncoded
  cases h with
  | text hc s =>
      -- Text has the same literal whether its type counts as character-encoded or not.
      by_cases hencoded : type.isCharacterEncoded = true
      · exact ⟨Text.utf8 s, by simp [encode, hencoded]⟩
      · exact ⟨Text.utf8 s, by simp [encode, hencoded, hc]⟩
  | bool hc x =>
      exact ⟨_, by simp only [encode, hchar nofun, hc, Bool.false_eq_true, if_false]; rfl⟩
  | int hc i hr =>
      exact ⟨_, by simp only [encode, hchar nofun, hc, hr, Bool.false_eq_true, if_false]; rfl⟩
  | uint hc n hr =>
      exact ⟨_, by simp only [encode, hchar nofun, hc, hr, Bool.false_eq_true, if_false]; rfl⟩
  | float hc hs =>
      exact ⟨_, by simp only [encode, hchar nofun, hc, hs, Bool.false_eq_true, if_false]; rfl⟩

/-- A decoded value already is in the variant of the type. -/
theorem Decoded.eq_of_readsAs {v w : Value} (h : Decoded type v) (hw : ReadsAs type v w) :
    w = v := by
  cases h with
  | text _ s => exact hw
  | bool _ x => exact hw
  | float _ _ => exact hw
  | int hc i _ =>
      rcases hw with ⟨hz, ⟨_, i', rfl⟩ | ⟨hc', _⟩⟩
      · exact congrArg Value.int (Int64.toInt_inj.mp (Option.some.inj hz))
      · cases hc.symm.trans hc'
  | uint hc n _ =>
      rcases hw with ⟨hz, ⟨hc', _⟩ | ⟨_, n', rfl⟩⟩
      · cases hc.symm.trans hc'
      · have hn : n'.toNat = n.toNat := Int.natCast_inj.mp (Option.some.inj hz)
        exact congrArg Value.uint (UInt64.toNat_inj.mp hn)

/-! ## Both directions -/

theorem decode_encode (hc : type.category ≠ .char) {v : Value} {b : Bytes}
    (hstr : type.isCharacterEncoded = true → v.kind = .str) (h : encode type v = .ok b) :
    ∃ w, decode type b = .ok w ∧ ReadsAs type v w :=
  (encoding_of_encode hc hstr h).decode

theorem encode_decode (hc : type.category ≠ .char) {v : Value} {b : Bytes}
    (h : decode type b = .ok v) : ∃ c, encode type v = .ok c ∧ decode type c = .ok v := by
  have hdecoded := decoded_of_decode hc h
  rcases hdecoded.exists_encode with ⟨c, hencode⟩
  rcases decode_encode hc (hdecoded.kind_eq_str) hencode with ⟨w, hdecode, hw⟩
  exact ⟨c, hencode, hdecoded.eq_of_readsAs hw ▸ hdecode⟩

/-- Of the types whose literal is not a single character: a value that has a literal is read from it
as itself, or as the same integer in the variant of the type, and a value that was read has a
literal from which it is read again. -/
theorem literal_round_trip (hc : type.category ≠ .char) :
    (∀ v b, (type.isCharacterEncoded = true → v.kind = .str) → encode type v = .ok b →
      ∃ w, decode type b = .ok w ∧ ReadsAs type v w) ∧
    (∀ b v, decode type b = .ok v → ∃ c, encode type v = .ok c ∧ decode type c = .ok v) :=
  ⟨fun _ _ hstr h => decode_encode hc hstr h, fun _ _ h => encode_decode hc h⟩

/-- The least positive number of single precision, carried in double precision, with a minus sign. -/
def negativeLeastSingle : Binary64 := ⟨true, .finite ⟨874 * 2 ^ 52, by decide +kernel⟩⟩

theorem literal_round_trip_least_single :
    SemanticType.float32.category ≠ .char ∧
      encode .float32 (.float negativeLeastSingle) = .ok (asciiBytes "-1e-45".toList) ∧
      ∃ w, decode .float32 (asciiBytes "-1e-45".toList) = .ok w ∧
        ReadsAs .float32 (.float negativeLeastSingle) w := by
  have hencode : encode .float32 (.float negativeLeastSingle) =
      .ok (asciiBytes "-1e-45".toList) := by decide +kernel
  exact ⟨by decide, hencode, (literal_round_trip (by decide)).1 _ _ (by decide) hencode⟩

end Literal
end FormatCheck
