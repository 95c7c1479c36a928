import FormatCheck.Proofs.Literal.RoundTrip

/-!
# Literals of integers

An integer is spelled by an optional sign and ASCII digits, of which there is at least one and may
be any number of leading zeros (`SpellsInteger`). A literal of an integer type that spells an integer
in the range of the type is read as that integer. One that spells another integer of 128 bits is out
of range, and every other literal is invalid, be it no UTF-8 at all.
-/

namespace FormatCheck

theorem IntRange.contains_iff {range : IntRange} {z : Int} :
    range.contains z = true ↔ range.least ≤ z ∧ z ≤ range.greatest := by
  simp [contains]

namespace Literal

variable {type : SemanticType} {literal : Bytes} {z : Int}

/-! ## Spelling -/

/-- A run of ASCII digits, not an empty one. -/
structure IsDigitRun (digits : Bytes) : Prop where
  ne_nil : digits ≠ []
  digit : ∀ b ∈ digits, 48 ≤ b.toNat ∧ b.toNat ≤ 57

/-- The decimal value of ASCII digits. -/
def digitRunValue (digits : Bytes) : Nat := digits.foldl (fun n b => n * 10 + (b.toNat - 48)) 0

/-- The literal is the spelling of the integer: an optional sign and decimal digits. -/
inductive SpellsInteger : Bytes → Int → Prop where
  | unsigned {digits : Bytes} : IsDigitRun digits → SpellsInteger digits (digitRunValue digits)
  | plus {digits : Bytes} :
      IsDigitRun digits → SpellsInteger (0x2b :: digits) (digitRunValue digits)
  | minus {digits : Bytes} :
      IsDigitRun digits → SpellsInteger (0x2d :: digits) (-digitRunValue digits)

/-! ## Digits -/

theorem digitRunValue_asciiBytes {s : List Char} (hs : ∀ c ∈ s, c.isDigit = true) :
    digitRunValue (asciiBytes s) = Numeral.readDecimal s := by
  -- Byte by byte the two folds do the same, from any number that they have come to.
  have hfold : ∀ n, (asciiBytes s).foldl (fun n b => n * 10 + (b.toNat - 48)) n =
      (s.map Numeral.digitValue).foldl (fun n d => n * 10 + d) n := by
    induction s with
    | nil =>
        exact fun _ => rfl
    | cons c s ih =>
        intro n
        rcases List.forall_mem_cons.mp hs with ⟨hc, hs⟩
        have hbyte : c.toUInt8.toNat = c.toNat :=
          Nat.mod_eq_of_lt (Nat.lt_trans (Decimal.toNat_lt_of_isDigit hc) (by decide))
        have hrest := ih hs (n * 10 + Numeral.digitValue c)
        rw [asciiBytes, List.map_cons, List.foldl_cons, hbyte, List.map_cons, List.foldl_cons]
        exact hrest
  exact hfold 0

theorem isDigitRun_asciiBytes {s : List Char} (hne : s ≠ []) (hs : ∀ c ∈ s, c.isDigit = true) :
    IsDigitRun (asciiBytes s) := by
  refine ⟨by simpa [asciiBytes] using hne, ?_⟩
  intro b hb
  rcases List.mem_map.mp hb with ⟨c, hc, rfl⟩
  have hcode : 48 ≤ c.toNat ∧ c.toNat ≤ 57 := Char.isDigit_iff_toNat.mp (hs c hc)
  have hsmall : c.toNat < 256 := by omega
  have hbyte : c.toUInt8.toNat = c.toNat := Nat.mod_eq_of_lt hsmall
  rwa [hbyte]

/-- A run of digits is the encoding of a numeral. -/
theorem IsDigitRun.exists_asciiBytes {digits : Bytes} (h : IsDigitRun digits) :
    ∃ s, s ≠ [] ∧ (∀ c ∈ s, c.isDigit = true) ∧ digits = asciiBytes s := by
  refine ⟨digits.map fun b => Char.ofNat b.toNat, by simpa using h.ne_nil, ?_, ?_⟩
  · intro c hc
    rcases List.mem_map.mp hc with ⟨b, hb, rfl⟩
    rw [Char.isDigit_iff_toNat, Text.toNat_ofNat_toNat]
    exact h.digit b hb
  · rw [asciiBytes, List.map_map]
    refine ((List.map_congr_left fun b _ => ?_).trans (List.map_id _)).symm
    exact Text.toUInt8_ofNat_toNat b

/-! ## Reading -/

theorem toNat_lt_of_digits {s : List Char} (hs : ∀ c ∈ s, c.isDigit = true) :
    ∀ c ∈ s, c.toNat < 128 :=
  fun c hc => Decimal.toNat_lt_of_isDigit (hs c hc)

theorem SpellsInteger.exists_asciiBytes (h : SpellsInteger literal z) :
    ∃ s, (∀ c ∈ s, c.toNat < 128) ∧ literal = asciiBytes s ∧ Numeral.integer? s = some z := by
  cases h with
  | unsigned hdigits =>
      rcases hdigits.exists_asciiBytes with ⟨s, hne, hs, rfl⟩
      refine ⟨s, toNat_lt_of_digits hs, rfl, ?_⟩
      rw [Numeral.integer?_of_digits hne hs, digitRunValue_asciiBytes hs]
  | plus hdigits =>
      rcases hdigits.exists_asciiBytes with ⟨s, hne, hs, rfl⟩
      refine ⟨'+' :: s, List.forall_mem_cons.mpr ⟨by decide, toNat_lt_of_digits hs⟩, rfl, ?_⟩
      rw [Numeral.integer?_plus, Numeral.natural?_of_digits hne hs, digitRunValue_asciiBytes hs,
        Option.map_some]
  | minus hdigits =>
      rcases hdigits.exists_asciiBytes with ⟨s, hne, hs, rfl⟩
      refine ⟨'-' :: s, List.forall_mem_cons.mpr ⟨by decide, toNat_lt_of_digits hs⟩, rfl, ?_⟩
      rw [Numeral.integer?_minus, Numeral.natural?_of_digits hne hs, digitRunValue_asciiBytes hs,
        Option.map_some]

theorem SpellsInteger.exists_text (h : SpellsInteger literal z) :
    ∃ text, Text.ofUtf8? literal = some text ∧ Numeral.integer? text.toList = some z := by
  rcases h.exists_asciiBytes with ⟨s, hascii, rfl, hread⟩
  refine ⟨String.ofList s, ofUtf8?_asciiBytes hascii, ?_⟩
  rw [String.toList_ofList]
  exact hread

theorem spellsInteger_asciiBytes {s : List Char} (h : Numeral.integer? s = some z) :
    SpellsInteger (asciiBytes s) z ∧ ∀ c ∈ s, c.toNat < 128 := by
  rcases Numeral.exists_of_integer? h with ⟨digits, n, hn, hcases⟩
  rcases Numeral.natural?_eq_some_iff.mp hn with ⟨hne, hdigits, rfl⟩
  have hrun := isDigitRun_asciiBytes hne hdigits
  have hascii := toNat_lt_of_digits hdigits
  rw [← digitRunValue_asciiBytes hdigits] at hcases
  rcases hcases with ⟨rfl, rfl⟩ | ⟨rfl | rfl, rfl⟩
  · exact ⟨.minus hrun, List.forall_mem_cons.mpr ⟨by decide, hascii⟩⟩
  · exact ⟨.plus hrun, List.forall_mem_cons.mpr ⟨by decide, hascii⟩⟩
  · exact ⟨.unsigned hrun, hascii⟩

/-- The spellings of integers are the literals that are read as integers. -/
theorem spellsInteger_iff :
    SpellsInteger literal z ↔
      ∃ text, Text.ofUtf8? literal = some text ∧ Numeral.integer? text.toList = some z := by
  constructor
  · exact SpellsInteger.exists_text
  · rintro ⟨text, htext, hread⟩
    rcases spellsInteger_asciiBytes hread with ⟨hspells, hascii⟩
    have hbytes : asciiBytes text.toList = literal := by
      rw [asciiBytes, ← Text.utf8_ofList_ascii hascii, String.ofList_toList]
      exact Text.ofUtf8?_eq_some_iff.mp htext
    exact hbytes ▸ hspells

/-! ## Ranges -/

variable {range : IntRange}

theorem category_of_intRange? (h : type.intRange? = some range) :
    type.category = .signedInt ∨ type.category = .unsignedInt := by
  cases type <;> simp_all [SemanticType.intRange?, SemanticType.category]

theorem checkRange_of_mem (h : type.intRange? = some range)
    (hz : range.least ≤ z ∧ z ≤ range.greatest) : checkRange type z = .ok () := by
  simp [checkRange, h, IntRange.contains_iff.mpr hz]

theorem checkRange_of_not_mem (h : type.intRange? = some range)
    (hz : ¬ (range.least ≤ z ∧ z ≤ range.greatest)) :
    checkRange type z = .error (.outOfRange type (Numeral.showInt z)) := by
  simp [checkRange, h, mt IntRange.contains_iff.mp hz]

/-- An integer is read within 128 bits. -/
def Readable (z : Int) : Prop := -(2 ^ 127) ≤ z ∧ z < 2 ^ 127

theorem readable_of_checkRange (hc : type.category = .signedInt ∨ type.category = .unsignedInt)
    (hr : checkRange type z = .ok ()) : Readable z := by
  unfold Readable
  rcases hc with hc | hc
  · have hbounds := le_of_checkRange_signed hc hr
    omega
  · have hbounds := le_of_checkRange_unsigned hc hr
    omega

theorem readInteger?_of_readable {s : List Char} (hread : Numeral.integer? s = some z)
    (hz : Readable z) : readInteger? s = some z := by
  have hrange : (IntRange.signed 128).contains z = true :=
    IntRange.contains_iff.mpr ⟨hz.1, Int.le_sub_one_of_lt hz.2⟩
  simp [readInteger?, hread, hrange]

theorem readable_of_readInteger? {s : List Char} (h : readInteger? s = some z) :
    Numeral.integer? s = some z ∧ Readable z := by
  unfold readInteger? at h
  split at h
  · next n hn =>
    split at h
    · next hrange =>
      cases h
      rcases IntRange.contains_iff.mp hrange with ⟨hlow, hhigh⟩
      exact ⟨hn, hlow, Int.lt_of_le_sub_one hhigh⟩
    · cases h
  · cases h

/-! ## Literals -/

/-- The error for a literal that spells no integer, or one of more than 128 bits. -/
def unreadableInteger (type : SemanticType) (literal : Bytes) : LiteralError :=
  .invalid type (Text.ofUtf8Replacing literal)
    (if (Text.ofUtf8? literal).isSome then "malformed literal" else "not valid UTF-8")

theorem decode_of_spells (hc : type.category = .signedInt ∨ type.category = .unsignedInt)
    (h : SpellsInteger literal z) (hz : Readable z) :
    decode type literal = (checkRange type z).map fun _ => variant type z := by
  rcases h.exists_text with ⟨text, htext, hread⟩
  exact decode_of_readInteger? hc htext (readInteger?_of_readable hread hz)

theorem decode_of_not_spells (hc : type.category = .signedInt ∨ type.category = .unsignedInt)
    (h : ∀ z, SpellsInteger literal z → ¬ Readable z) :
    decode type literal = .error (unreadableInteger type literal) := by
  have hnone : ∀ text, Text.ofUtf8? literal = some text → readInteger? text.toList = none := by
    intro text htext
    rw [Option.eq_none_iff_forall_ne_some]
    intro z hread
    rcases readable_of_readInteger? hread with ⟨hinteger, hz⟩
    exact h z (spellsInteger_iff.mpr ⟨text, htext, hinteger⟩) hz
  -- Bytes that are no text are refused before their type is looked at.
  cases htext : Text.ofUtf8? literal with
  | none =>
      rcases hc with hc | hc <;> simp [decode, unreadableInteger, hc, htext]
  | some text =>
      rcases hc with hc | hc <;> simp [decode, unreadableInteger, hc, htext, hnone text htext]

theorem exists_decode_of_mem (h : type.intRange? = some range) (hspells : SpellsInteger literal z)
    (hz : range.least ≤ z ∧ z ≤ range.greatest) :
    ∃ v, decode type literal = .ok v ∧ IsVariant type z v := by
  have hc := category_of_intRange? h
  have hr := checkRange_of_mem h hz
  refine ⟨variant type z, ?_, isVariant_variant hc hr⟩
  rw [decode_of_spells hc hspells (readable_of_checkRange hc hr), hr]
  rfl

theorem decode_of_not_mem (h : type.intRange? = some range) (hspells : SpellsInteger literal z)
    (hz : ¬ (range.least ≤ z ∧ z ≤ range.greatest)) (hreadable : Readable z) :
    decode type literal = .error (.outOfRange type (Numeral.showInt z)) := by
  rw [decode_of_spells (category_of_intRange? h) hspells hreadable, checkRange_of_not_mem h hz]
  rfl

theorem exists_mem_of_decode (h : type.intRange? = some range) {v : Value}
    (hv : decode type literal = .ok v) :
    ∃ z, SpellsInteger literal z ∧ range.least ≤ z ∧ z ≤ range.greatest := by
  -- Were there no such integer, the literal would be out of range or invalid.
  by_contra hnone
  have herror : ∃ e, decode type literal = .error e := by
    by_cases hspelled : ∃ z, SpellsInteger literal z ∧ Readable z
    · rcases hspelled with ⟨z, hspells, hreadable⟩
      exact ⟨_, decode_of_not_mem h hspells (fun hz => hnone ⟨z, hspells, hz⟩) hreadable⟩
    · have hinvalid : ∀ z, SpellsInteger literal z → ¬ Readable z :=
        fun z hspells hreadable => hspelled ⟨z, hspells, hreadable⟩
      exact ⟨_, decode_of_not_spells (category_of_intRange? h) hinvalid⟩
  rcases herror with ⟨e, he⟩
  cases hv.symm.trans he

/-- A literal of an integer type is read exactly if it spells an integer in the range of the type,
and then as that integer. A spelling of another integer of 128 bits is out of range, and all else is
invalid. -/
theorem decode_integerType (h : type.intRange? = some range) (literal : Bytes) :
    ((∃ v, decode type literal = .ok v) ↔
        ∃ z, SpellsInteger literal z ∧ range.least ≤ z ∧ z ≤ range.greatest) ∧
      (∀ z, SpellsInteger literal z → range.least ≤ z ∧ z ≤ range.greatest →
        ∃ v, decode type literal = .ok v ∧ IsVariant type z v) ∧
      (∀ z, SpellsInteger literal z → ¬ (range.least ≤ z ∧ z ≤ range.greatest) → Readable z →
        decode type literal = .error (.outOfRange type (Numeral.showInt z))) ∧
      ((∀ z, SpellsInteger literal z → ¬ Readable z) →
        decode type literal = .error (unreadableInteger type literal)) := by
  refine ⟨⟨?_, ?_⟩, ?_, ?_, decode_of_not_spells (category_of_intRange? h)⟩
  · rintro ⟨v, hv⟩
    exact exists_mem_of_decode h hv
  · rintro ⟨z, hspells, hz⟩
    rcases exists_decode_of_mem h hspells hz with ⟨v, hv, _⟩
    exact ⟨v, hv⟩
  · intro z hspells hz
    exact exists_decode_of_mem h hspells hz
  · intro z hspells hz hreadable
    exact decode_of_not_mem h hspells hz hreadable

/-- Zeros in front, one too many, and a byte that begins no text. -/
theorem decode_integerType_leastWithZeros :
    SemanticType.int8.intRange? = some (.signed 8) ∧
      SpellsInteger [0x2d, 0x30, 0x31, 0x32, 0x38] (-128) ∧
      (∃ v, decode .int8 [0x2d, 0x30, 0x31, 0x32, 0x38] = .ok v ∧ IsVariant .int8 (-128) v) ∧
      SpellsInteger [0x2b, 0x31, 0x32, 0x38] 128 ∧ Readable 128 ∧
      decode .int8 [0x2b, 0x31, 0x32, 0x38] = .error (.outOfRange .int8 (Numeral.showInt 128)) ∧
      (∀ z, SpellsInteger [0xff] z → ¬ Readable z) ∧
      decode .int8 [0xff] = .error (unreadableInteger .int8 [0xff]) := by
  have hleast : SpellsInteger [0x2d, 0x30, 0x31, 0x32, 0x38] (-128) :=
    .minus ⟨by decide, by simp⟩
  have hgreater : SpellsInteger [0x2b, 0x31, 0x32, 0x38] 128 := .plus ⟨by decide, by simp⟩
  have hreadable : Readable 128 := ⟨by decide, by decide⟩
  have hnone : ∀ z, SpellsInteger [0xff] z → ¬ Readable z := by
    intro z hspells
    rcases hspells.exists_text with ⟨text, htext, _⟩
    cases (Text.ofUtf8?_singleton 0xff).symm.trans htext
  refine ⟨rfl, hleast, ?_, hgreater, hreadable, ?_, hnone, ?_⟩
  · exact (decode_integerType rfl _).2.1 _ hleast (by decide)
  · exact (decode_integerType rfl _).2.2.1 _ hgreater (by decide) hreadable
  · exact (decode_integerType rfl _).2.2.2 hnone

end Literal
end FormatCheck
