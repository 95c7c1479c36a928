import FormatCheck.CaseRecord
import FormatCheck.Proofs.Literal.Character
import FormatCheck.Proofs.Literal.RoundTrip
import FormatCheck.Proofs.Render.Alike
import FormatCheck.Subject.Reference

/-!
# The reference subject conforms

A subject that renders what it reads from the literal passes every case it can pass: the value it
reads renders like the value sent, and what it prints is read back unless a character lies past
Latin-1. A case that the engine rejects is rejected by the subject for the same reason.

The proof runs along the data: value to literal, literal to value, rendering to bytes, bytes to the
text that the record compares.
-/

namespace FormatCheck

variable {type : SemanticType} {v : Value}

/-! ## Values that a literal carries -/

namespace Literal

/-- The type's literal tells the value: a character-encoded type is sent texts only, and a type of
single characters one ASCII character. -/
def Carries (type : SemanticType) (v : Value) : Prop :=
  (type.isCharacterEncoded = true → v.kind = .str) ∧
    (type.category = .char → ∃ c : Char, c.toNat < 128 ∧ v = .str (String.singleton c))

theorem IsVariant.kind_eq_int {z : Int} {w : Value} (h : IsVariant type z w) : w.kind = .int := by
  rcases h with ⟨_, ⟨_, i, rfl⟩ | ⟨_, n, rfl⟩⟩
  · rfl
  · rfl

theorem ReadsAs.alike {w : Value} (h : ReadsAs type v w) : v.Alike w := by
  cases v with
  | int i =>
      exact .integer rfl (IsVariant.kind_eq_int h) h.1.symm
  | uint n =>
      exact .integer rfl (IsVariant.kind_eq_int h) h.1.symm
  | bool b =>
      cases h
      exact .refl _
  | float x =>
      cases h
      exact .refl _
  | str s =>
      cases h
      exact .refl _

/-- A single ASCII character is one byte, and that byte is read as the character. -/
theorem decode_encode_char (hc : type.category = .char) {c : Char} (hascii : c.toNat < 128)
    {literal : Bytes} (h : encode type (.str (String.singleton c)) = .ok literal) :
    decode type literal = .ok (.str (String.singleton c)) := by
  have hencoded : type.isCharacterEncoded = true := by
    cases type <;> simp_all [SemanticType.category, SemanticType.isCharacterEncoded]
  have hliteral : Text.utf8 (String.singleton c) = literal := by
    simpa [encode, hencoded] using h
  rw [← hliteral]
  exact decode_utf8_of_survives hencoded fun _ => ⟨c, hascii, rfl⟩

/-- What is read from a literal renders like the value it was written for. -/
theorem exists_alike_of_encode (hcarries : Carries type v) {literal : Bytes}
    (h : encode type v = .ok literal) : ∃ w, decode type literal = .ok w ∧ v.Alike w := by
  rcases hcarries with ⟨hstr, hchar⟩
  -- The types of single characters have a literal of their own, all others read back what was sent.
  by_cases hc : type.category = .char
  · rcases hchar hc with ⟨c, hascii, rfl⟩
    exact ⟨_, decode_encode_char hc hascii h, .refl _⟩
  · rcases decode_encode hc hstr h with ⟨w, hw, hreads⟩
    exact ⟨w, hw, hreads.alike⟩

end Literal

/-! ## A process that ends at once -/

namespace Process

variable (code : Nat) (stdout stderr : Bytes)

theorem success_observe_instant :
    ((instant code stdout stderr).observe none).success = decide (code = 0) := by
  have hstatus : ((instant code stdout stderr).observe none).status = .exited code := rfl
  simp [SubjectOutput.success, hstatus]

theorem stdout_observe_instant :
    ((instant code stdout stderr).observe none).stdout = Text.latin1 stdout := by
  have hwritten : (instant code stdout stderr).written .stdout none = stdout := by
    simp [instant, written]
  simp only [observe, observeFully, output, hwritten]

end Process

/-! ## The reference subject -/

namespace ReferenceSubject

/-- A rendering is read as it was printed exactly if it is Latin-1. -/
theorem latin1_outputBytes_eq_iff (text : String) :
    Text.latin1 (outputBytes text) = text ↔ ∀ c ∈ text.toList, c.toNat ≤ 0xff := by
  constructor
  · -- No inverse is needed here: whatever is read lies below `U+0100`.
    intro h c hc
    have hlt : c.toNat < 256 := Text.toNat_lt_of_mem_latin1 (h.symm ▸ hc)
    exact Nat.le_of_lt_succ hlt
  · intro h
    have hlt : ∀ c ∈ text.toList, c.toNat < 256 := fun c hc => Nat.lt_succ_of_le (h c hc)
    simp only [outputBytes, Text.toLatin1?_of_lt hlt, Option.getD_some]
    exact Text.latin1_map_toUInt8 hlt

/-- The answer to a value is what the engine makes of that value. -/
theorem answer_of_encode (hcarries : Literal.Carries type v) {literal : Bytes}
    (h : Literal.encode type v = .ok literal) (format : String) :
    answer format type.tag literal =
      match expectedRendering format v with
      | .error e => .error (.format e)
      | .ok text => .ok (outputBytes text) := by
  -- The value read may be another one, but it renders the same.
  rcases Literal.exists_alike_of_encode hcarries h with ⟨w, hw, halike⟩
  have hw' : expectedRendering format w = expectedRendering format v :=
    (expectedRendering_congr halike format).symm
  cases hv : expectedRendering format v with
  | error e => simp [answer, SemanticType.ofTag?_tag, hw, hw', hv]
  | ok text => simp [answer, SemanticType.ofTag?_tag, hw, hw', hv]

/-- The record of the case in which the reference subject is sent a value. -/
def caseRecord (type : SemanticType) (format : String) (v : Value) (literal : Bytes) : CaseRecord :=
  .ofOutput type format v (expectedRendering format v)
    ((respond (answer format type.tag literal)).observe none)

theorem verdict_of_ok {format text : String} (hv : expectedRendering format v = .ok text)
    {literal : Bytes} (h : answer format type.tag literal = .ok (outputBytes text)) :
    (caseRecord type format v literal).verdict =
      if text.toList.all fun c => c.toNat ≤ 0xff then .matched else .mismatch := by
  have hread : (text = Text.latin1 (outputBytes text)) ↔ ∀ c ∈ text.toList, c.toNat ≤ 0xff :=
    eq_comm.trans (latin1_outputBytes_eq_iff text)
  simp [caseRecord, CaseRecord.ofOutput, CaseRecord.judge, hv, h, respond,
    Process.success_observe_instant, Process.stdout_observe_instant, hread]

theorem verdict_of_error {format : String} {e : FormatError}
    (hv : expectedRendering format v = .error e) {literal : Bytes} {refusal : Refusal}
    (h : answer format type.tag literal = .error refusal) :
    (caseRecord type format v literal).verdict = .bothRejected := by
  simp [caseRecord, CaseRecord.ofOutput, CaseRecord.judge, hv, h, respond,
    Process.success_observe_instant]

/-- The reference subject passes every case whose rendering is Latin-1, mismatches on every other
rendering, and rejects for the engine's own reason whatever the engine rejects. -/
theorem reference_subject_conforms {literal : Bytes} (hencode : Literal.encode type v = .ok literal)
    (hcarries : Literal.Carries type v) (format : String) :
    (∀ text, expectedRendering format v = .ok text →
      (caseRecord type format v literal).verdict =
        if text.toList.all fun c => c.toNat ≤ 0xff then .matched else .mismatch) ∧
    (∀ e, expectedRendering format v = .error e →
      answer format type.tag literal = .error (.format e) ∧
        (caseRecord type format v literal).verdict = .bothRejected) := by
  have hanswer := answer_of_encode hcarries hencode format
  constructor
  · intro text hv
    rw [hv] at hanswer
    exact verdict_of_ok hv hanswer
  · intro e hv
    rw [hv] at hanswer
    exact ⟨hanswer, verdict_of_error hv hanswer⟩

/-- An unsigned value of a signed type comes back signed, and its character is written as Latin-1. -/
theorem reference_subject_conforms_code_point :
    Literal.encode .int32 (.uint 233) = .ok [0x32, 0x33, 0x33] ∧
      Literal.Carries .int32 (.uint 233) ∧
      expectedRendering "{:c}" (.uint 233) = .ok "é" ∧
      (caseRecord .int32 "{:c}" (.uint 233) [0x32, 0x33, 0x33]).verdict = .matched := by
  have hencode : Literal.encode .int32 (.uint 233) = .ok [0x32, 0x33, 0x33] := by decide +kernel
  have hcarries : Literal.Carries .int32 (.uint 233) :=
    ⟨by decide, fun hchar => nomatch hchar⟩
  have hrendering : expectedRendering "{:c}" (.uint 233) = .ok "é" := by decide +kernel
  have hlatin1 : ("é".toList.all fun c => c.toNat ≤ 0xff) = true := by decide +kernel
  refine ⟨hencode, hcarries, hrendering, ?_⟩
  rw [(reference_subject_conforms hencode hcarries "{:c}").1 "é" hrendering, if_pos hlatin1]

end ReferenceSubject
end FormatCheck
