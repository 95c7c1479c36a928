import FormatCheck.Literal
import FormatCheck.Proofs.Outcome
import FormatCheck.Proofs.Text.Encoding

/-!
# Literals of characters

The types that are encoded by characters send a text as its UTF-8 bytes and a number as one byte.
They are read in two ways: `char` and `unsigned char` take one byte, in Latin-1, and `char[]` takes
UTF-8. So not everything that is written is read: a text of no character, of several or of one
beyond ASCII is no single byte, and a byte beyond ASCII is no UTF-8. `Survives` says what is read;
nothing else is.
-/

namespace FormatCheck
namespace Literal

variable {type : SemanticType} {v : Value} {literal : Bytes}

/-- The byte that a number is sent as, in two's complement. -/
def numberByte (z : Int) : UInt8 := UInt8.ofNat (z % 256).toNat

/-- The type reads the byte of the number: any byte in Latin-1, and in UTF-8 an ASCII one. -/
def SurvivesAsByte (type : SemanticType) (z : Int) : Prop :=
  type.category = .char ∨ 0 ≤ z ∧ z < 128

/-- What the type writes for the value it also reads. -/
def Survives (type : SemanticType) : Value → Prop
  | .str s => type.category = .char → ∃ c : Char, c.toNat < 128 ∧ s = String.singleton c
  | .int i => SurvivesAsByte type i.toInt
  | .uint n => SurvivesAsByte type n.toNat
  | .bool _ | .float _ => False

/-- The text that comes back for a value: a text as it is, a number as the character of its byte. -/
def asText : Value → Value
  | .int i => .str (Text.latin1 [numberByte i.toInt])
  | .uint n => .str (Text.latin1 [numberByte n.toNat])
  | v => v

/-- The error for bytes that are no character or no text of the type. -/
def unreadable (type : SemanticType) (literal : Bytes) : LiteralError :=
  .invalid type (Text.ofUtf8Replacing literal)
    (if type.category = .char then "expected exactly one character" else "not valid UTF-8")

/-! ## Reading -/

theorem category_of_isCharacterEncoded (h : type.isCharacterEncoded = true) :
    type.category = .char ∨ type.category = .text := by
  cases type <;> simp_all [SemanticType.isCharacterEncoded, SemanticType.category]

theorem decode_char_singleton (hc : type.category = .char) (b : UInt8) :
    decode type [b] = .ok (.str (Text.latin1 [b])) := by
  rw [decode, if_pos hc]

theorem decode_char_of_ne (hc : type.category = .char) (h : ∀ b, literal ≠ [b]) :
    decode type literal = .error (unreadable type literal) := by
  unfold decode unreadable
  dsimp only
  rw [if_pos hc, if_pos hc]
  split
  · next b => exact absurd rfl (h b)
  · rfl

theorem decode_text (hc : type.category = .text) :
    decode type literal =
      match Text.ofUtf8? literal with
      | some s => .ok (.str s)
      | none => .error (unreadable type literal) := by
  have hne : (Category.text = .char) = False := by simp
  simp only [decode, unreadable, hc, hne, if_false]
  cases Text.ofUtf8? literal <;> rfl

/-! ## Texts -/

theorem decode_utf8_of_survives (hencoded : type.isCharacterEncoded = true) {s : String}
    (h : Survives type (.str s)) : decode type (Text.utf8 s) = .ok (.str s) := by
  rcases category_of_isCharacterEncoded hencoded with hc | hc
  · rcases h hc with ⟨c, hascii, rfl⟩
    have hlatin1 : Text.latin1 [c.toUInt8] = String.singleton c := by
      simpa using Text.latin1_map_toUInt8 (s := String.singleton c) (by simp; omega)
    rw [Text.utf8_singleton_ascii hascii, decode_char_singleton hc, hlatin1]
  · rw [decode_text hc, Text.ofUtf8?_utf8]

theorem decode_utf8_of_not_survives {s : String} (h : ¬ Survives type (.str s)) :
    decode type (Text.utf8 s) = .error (unreadable type (Text.utf8 s)) := by
  have hc : type.category = .char ∧ ¬ ∃ c : Char, c.toNat < 128 ∧ s = String.singleton c :=
    Classical.not_imp.mp h
  refine decode_char_of_ne hc.1 fun b hb => ?_
  exact hc.2 (Text.exists_ascii_of_utf8_eq hb)

/-! ## Numbers -/

theorem charByte_eq_ok {z : Int} {b : UInt8} (h : charByte z = .ok b) :
    (-128 ≤ z ∧ z < 256) ∧ b = numberByte z := by
  unfold charByte at h
  split at h
  · next hz => exact ⟨hz, (Except.ok.inj h).symm⟩
  · cases h

/-- The byte of a number is ASCII if the number is. -/
theorem toNat_numberByte_lt_iff {z : Int} (hz : -128 ≤ z ∧ z < 256) :
    (numberByte z).toNat < 128 ↔ 0 ≤ z ∧ z < 128 := by
  have hbyte : (numberByte z).toNat = (z % 256).toNat := Nat.mod_eq_of_lt (by omega)
  omega

theorem decode_number (hencoded : type.isCharacterEncoded = true) {z : Int}
    (h : (charByte z).map (fun b => [b]) = .ok literal) :
    (SurvivesAsByte type z → decode type literal = .ok (.str (Text.latin1 [numberByte z]))) ∧
      (¬ SurvivesAsByte type z → decode type literal = .error (unreadable type literal)) := by
  rcases exists_of_map_eq_ok h with ⟨b, hb, rfl⟩
  rcases charByte_eq_ok hb with ⟨hz, rfl⟩
  rcases category_of_isCharacterEncoded hencoded with hc | hc
  · refine ⟨fun _ => decode_char_singleton hc _, fun hlost => ?_⟩
    exact absurd (Or.inl hc) hlost
  · have hsurvives : SurvivesAsByte type z ↔ (numberByte z).toNat < 128 := by
      simp [SurvivesAsByte, hc, toNat_numberByte_lt_iff hz]
    rw [hsurvives, decode_text hc, Text.ofUtf8?_singleton]
    constructor
    · intro hascii
      rw [if_pos hascii]
    · intro hbeyond
      rw [if_neg hbeyond]

/-! ## Values -/

/-- What is written for a value is read back, and then as the text that it stands for, or it is
refused, as the value and the type say. -/
theorem decode_encode_character (hencoded : type.isCharacterEncoded = true)
    (h : encode type v = .ok literal) :
    (Survives type v → decode type literal = .ok (asText v)) ∧
      (¬ Survives type v → decode type literal = .error (unreadable type literal)) := by
  unfold encode at h
  rw [if_pos hencoded] at h
  cases v with
  | str s =>
      obtain rfl := Except.ok.inj h
      exact ⟨decode_utf8_of_survives hencoded, decode_utf8_of_not_survives⟩
  | int i =>
      exact decode_number hencoded h
  | uint n =>
      exact decode_number hencoded h
  | bool b =>
      cases h
  | float x =>
      cases h

/-- A byte beyond ASCII, read as a character and refused as a text. -/
theorem decode_encode_character_minusFive :
    Survives .char (.int (-5)) ∧ ¬ Survives .charArray (.int (-5)) ∧
      encode .char (.int (-5)) = .ok [251] ∧ encode .charArray (.int (-5)) = .ok [251] ∧
      decode .char [251] = .ok (asText (.int (-5))) ∧
      decode .charArray [251] = .error (unreadable .charArray [251]) := by
  have hread : Survives .char (.int (-5)) := Or.inl rfl
  have hrefused : ¬ Survives .charArray (.int (-5)) := by
    rintro (hchar | hascii)
    · exact absurd hchar (by decide)
    · exact absurd hascii (by decide)
  have hchar : encode .char (.int (-5)) = .ok [251] := rfl
  have htext : encode .charArray (.int (-5)) = .ok [251] := rfl
  exact ⟨hread, hrefused, hchar, htext, (decode_encode_character rfl hchar).1 hread,
    (decode_encode_character rfl htext).2 hrefused⟩

/-- Literals that are written and not read: two characters, and a number that is no ASCII
character. -/
theorem decode_encode_unreadable :
    encode .char (.str "ab") = .ok [97, 98] ∧ (∀ w, decode .char [97, 98] ≠ .ok w) ∧
      encode .charArray (.int (-5)) = .ok [251] ∧ ∀ w, decode .charArray [251] ≠ .ok w := by
  have hchar : decode .char [97, 98] = .error (unreadable .char [97, 98]) :=
    decode_char_of_ne rfl (by simp)
  have hnumber : decode .charArray [251] = .error (unreadable .charArray [251]) := by
    rw [decode_text rfl, Text.ofUtf8?_singleton]
    rfl
  refine ⟨rfl, ?_, rfl, ?_⟩
  · intro w hw
    exact nomatch hchar.symm.trans hw
  · intro w hw
    exact nomatch hnumber.symm.trans hw

end Literal
end FormatCheck
