import FormatCheck.Proofs.Template.Print
import FormatCheck.Proofs.Template.Source
import FormatCheck.Proofs.Text.Encoding
import Mathlib.Data.String.Basic

/-!
# A scan by byte position

A template can be scanned over its UTF-8 bytes, by a cursor that moves a position and cuts the texts
of the segments out between two positions. The cut needs both positions on boundaries of characters,
and a cursor that missed one would get no text at all (`Fault.slice`).

The marks the cursor looks for are ASCII, and no byte of another character is one of them
(`eq_toUInt8_iff`). So its loops stop at the bytes of the characters at which the scanner of
characters stops: `upTo_encode`, `pastName_encode` and `pastSpec_encode`.
-/

namespace FormatCheck
namespace Template

open Text (utf8 isAscii)

/-! ## The cursor -/

/-- A scan in progress. -/
structure Cursor where
  text : String
  /-- A byte position, which is not read any more after a defect. -/
  pos : Nat
  failed : Bool
  deriving DecidableEq

/-- Why nothing is taken: the template has a defect, or a slice of it does not lie on the boundaries
of characters. -/
inductive Fault where
  | defect (e : FormatError)
  | slice
  deriving DecidableEq, Repr

namespace Cursor

/-- A scan that has not begun. -/
def start (text : String) : Cursor := ⟨text, 0, false⟩

/-- The text between two byte positions, if these are boundaries of characters in order. -/
def slice (text : String) (start stop : Nat) : Except Fault String :=
  if start ≤ stop ∧ (⟨start⟩ : String.Pos.Raw).IsValid text ∧
      (⟨stop⟩ : String.Pos.Raw).IsValid text then
    .ok (String.Pos.Raw.extract text ⟨start⟩ ⟨stop⟩)
  else .error .slice

/-- Moves a position to the first byte that is one of the marks, with the bytes from there on. -/
def upTo (marks : List Char) (pos : Nat) : Bytes → Nat × Bytes
  | [] => (pos, [])
  | b :: bytes =>
    if b ∈ marks.map Char.toUInt8 then (pos, b :: bytes) else upTo marks (pos + 1) bytes

theorem length_upTo_le (marks : List Char) (pos : Nat) (bytes : Bytes) :
    (upTo marks pos bytes).2.length ≤ bytes.length := by
  induction bytes generalizing pos with
  | nil => exact Nat.le_refl _
  | cons b bytes ih =>
      unfold upTo
      split
      · exact Nat.le_refl _
      · exact Nat.le_succ_of_le (ih (pos + 1))

/-- The byte that ends a field name, and the position after it. -/
def pastName (pos : Nat) : Bytes → Except Fault (UInt8 × Nat)
  | [] => .error (.defect .unterminatedField)
  | b :: bytes =>
    if b = '{'.toUInt8 then .error (.defect .unexpectedBraceInName)
    else if b = '['.toUInt8 then
      -- The bracket that closes is read with what follows it.
      pastName (upTo [']'] (pos + 1) bytes).1 (upTo [']'] (pos + 1) bytes).2
    else if b = '}'.toUInt8 ∨ b = ':'.toUInt8 ∨ b = '!'.toUInt8 then .ok (b, pos + 1)
    else pastName (pos + 1) bytes
termination_by bytes => bytes.length
decreasing_by
  · exact Nat.lt_succ_of_le (length_upTo_le _ _ _)
  · exact Nat.lt_succ_self _

/-- Whether a brace is opened before the one that closes the `depth` braces open, and the position
after that. -/
def pastSpec (pos depth : Nat) (nested : Bool) : Bytes → Except Fault (Bool × Nat)
  | [] => .error (.defect .unmatchedOpenBrace)
  | b :: bytes =>
    if b = '{'.toUInt8 then pastSpec (pos + 1) (depth + 1) true bytes
    else if b = '}'.toUInt8 then
      if depth - 1 = 0 then .ok (nested, pos + 1) else pastSpec (pos + 1) (depth - 1) nested bytes
    else pastSpec (pos + 1) depth nested bytes

/-- Takes a specifier and the closing brace of the field. -/
def takeSpecAt (text name : String) (conversion : Option Char) (start : Nat) :
    Except Fault (Field × Nat) := do
  let (nested, pos) ← pastSpec start 1 false ((utf8 text).drop start)
  let spec ← slice text start (pos - 1)
  return (⟨name, conversion, spec, nested⟩, pos)

/-- Takes the conversion of a field and what follows it. -/
def takeConversionAt (text name : String) (start : Nat) : Except Fault (Field × Nat) := do
  let rest ← slice text start text.utf8ByteSize
  match rest.toList.head? with
  | none => throw (.defect .missingConversion)
  | some c =>
    let pos := start + c.utf8Size
    match (utf8 text)[pos]? with
    -- The text ends here, and the end of a specifier is looked for in vain.
    | none => takeSpecAt text name (some c) pos
    | some b =>
      if b = '}'.toUInt8 then return (⟨name, some c, "", false⟩, pos + 1)
      else if b ≠ ':'.toUInt8 then throw (.defect .expectedColonAfterConversion)
      else takeSpecAt text name (some c) (pos + 1)

/-- Takes a field from the end of its opening brace on. -/
def takeFieldAt (text : String) (start : Nat) : Except Fault (Field × Nat) := do
  let (stop, pos) ← pastName start ((utf8 text).drop start)
  let name ← slice text start (pos - 1)
  if stop = '}'.toUInt8 then return (⟨name, none, "", false⟩, pos)
  else if stop = '!'.toUInt8 then takeConversionAt text name pos
  else takeSpecAt text name none pos

/-- Takes a segment whose first brace is at a position. -/
def takeBraceAt (text : String) (start before : Nat) (brace : UInt8) :
    Except Fault (Segment × Nat) :=
  let pos := before + 1
  let atEnd := text.utf8ByteSize ≤ pos
  let doubled := (utf8 text)[pos]? = some brace
  if brace = '}'.toUInt8 ∧ ¬doubled then throw (.defect (.unbalancedBrace '}'))
  else if brace = '{'.toUInt8 ∧ atEnd then throw (.defect (.unbalancedBrace '{'))
  else if doubled then do
    -- One brace of the pair stays in the text.
    let literal ← slice text start pos
    return (.literal literal, pos + 1)
  else do
    let literal ← slice text start before
    -- The brace after a literal is left for the next segment.
    if literal ≠ "" then return (.literal literal, before)
    else
      let (field, pos) ← takeFieldAt text pos
      return (.field field, pos)

/-- Takes a segment. -/
def takeAt (text : String) (start : Nat) : Except Fault (Segment × Nat) :=
  match upTo ['{', '}'] start ((utf8 text).drop start) with
  | (before, brace :: _) => takeBraceAt text start before brace
  | (pos, []) => do
    let literal ← slice text start text.utf8ByteSize
    return (.literal literal, pos)

/-- The next item of a scan, if there is one, and the scan after it. -/
def next (c : Cursor) : Option (Option (Except FormatError Segment) × Cursor) :=
  if c.failed ∨ c.text.utf8ByteSize ≤ c.pos then some (none, c)
  else
    match takeAt c.text c.pos with
    | .ok (segment, pos) => some (some (.ok segment), { c with pos })
    | .error (.defect e) => some (some (.error e), { c with failed := true })
    | .error .slice => none

/-! ## Marks among the bytes -/

/-- The bytes of characters. -/
def encode (s : List Char) : Bytes := s.flatMap String.utf8EncodeChar

theorem encode_cons (c : Char) (s : List Char) :
    encode (c :: s) = String.utf8EncodeChar c ++ encode s := List.flatMap_cons

theorem encode_append (s t : List Char) : encode (s ++ t) = encode s ++ encode t :=
  List.flatMap_append

theorem utf8_eq_encode (text : String) : utf8 text = encode text.toList :=
  Text.utf8_eq_flatMap text

theorem length_encode (s : List Char) : (encode s).length = String.utf8Len s := by
  induction s with
  | nil => rfl
  | cons c s ih =>
      rw [encode_cons, List.length_append, ih, String.length_utf8EncodeChar, String.utf8Len_cons]
      exact Nat.add_comm _ _

variable {c m : Char} {b : UInt8} {s : List Char} {bytes : Bytes} {marks : List Char}

/-- A byte is an ASCII character just if it is the only one of that character. -/
theorem eq_toUInt8_iff (hm : m.toNat < 128) (hb : b ∈ String.utf8EncodeChar c) :
    b = m.toUInt8 ↔ c = m := by
  have hbyte : m.toUInt8.toNat = m.toNat := Nat.mod_eq_of_lt (Nat.lt_trans hm (by decide))
  constructor
  · rintro rfl
    have hcode := (Text.toNat_of_mem_utf8EncodeChar hb).2 (hbyte ▸ hm)
    exact Char.toNat_inj.mp (hcode.trans hbyte)
  · rintro rfl
    rw [String.utf8EncodeChar_eq_singleton (Text.utf8Size_eq_one_iff.mpr hm)] at hb
    exact List.mem_singleton.mp hb

theorem encode_cons_ascii (hm : m.toNat < 128) (s : List Char) :
    encode (m :: s) = m.toUInt8 :: encode s := by
  rw [encode_cons, String.utf8EncodeChar_eq_singleton (Text.utf8Size_eq_one_iff.mpr hm)]
  rfl

theorem toNat_lt_of_mem (hmarks : marks.all isAscii = true) (hm : m ∈ marks) : m.toNat < 128 :=
  of_decide_eq_true (List.all_eq_true.mp hmarks m hm)

theorem not_mem_map_toUInt8 (hmarks : marks.all isAscii = true) (hc : c ∉ marks) :
    ∀ b ∈ String.utf8EncodeChar c, b ∉ marks.map Char.toUInt8 := by
  intro b hb hmem
  rcases List.mem_map.mp hmem with ⟨m, hm, rfl⟩
  exact hc ((eq_toUInt8_iff (toNat_lt_of_mem hmarks hm) hb).mp rfl ▸ hm)

/-- The first byte of a text is one of its first character. -/
theorem exists_head?_encode (c : Char) (s : List Char) :
    ∃ b ∈ String.utf8EncodeChar c, (encode (c :: s)).head? = some b := by
  have hlength := String.length_utf8EncodeChar c
  have hpos := c.utf8Size_pos
  rw [encode_cons]
  cases hbytes : String.utf8EncodeChar c with
  | nil =>
      rw [hbytes] at hlength
      exact absurd hlength (Nat.ne_of_lt hpos)
  | cons b bytes => exact ⟨b, List.mem_cons_self, rfl⟩

theorem upTo_append (h : ∀ b ∈ bytes, b ∉ marks.map Char.toUInt8) (pos : Nat) (more : Bytes) :
    upTo marks pos (bytes ++ more) = upTo marks (pos + bytes.length) more := by
  induction bytes generalizing pos with
  | nil => rfl
  | cons b bytes ih =>
      rw [List.cons_append, upTo, if_neg (h b List.mem_cons_self),
        ih fun d hd => h d (List.mem_cons_of_mem b hd), List.length_cons]
      congr 1
      omega

/-- The loop goes over characters that are no marks. -/
theorem upTo_encode_cons (hmarks : marks.all isAscii = true) (pos : Nat) (c : Char)
    (s : List Char) :
    upTo marks pos (encode (c :: s)) =
      if c ∈ marks then (pos, encode (c :: s)) else upTo marks (pos + c.utf8Size) (encode s) := by
  split
  · next hc =>
    rw [encode_cons_ascii (toNat_lt_of_mem hmarks hc), upTo, if_pos (List.mem_map_of_mem hc)]
  · next hc =>
    rw [encode_cons, upTo_append (not_mem_map_toUInt8 hmarks hc), String.length_utf8EncodeChar]

theorem upTo_encode (hmarks : marks.all isAscii = true) (pos : Nat) (s : List Char) :
    upTo marks pos (encode s) =
      (pos + String.utf8Len (s.takeWhile (· ∉ marks)), encode (s.dropWhile (· ∉ marks))) := by
  induction s generalizing pos with
  | nil => rfl
  | cons c s ih =>
      rw [upTo_encode_cons hmarks]
      by_cases hc : c ∈ marks
      · simp [hc]
      · simp only [hc, ih, not_false_eq_true, decide_true, if_false, List.takeWhile_cons_of_pos,
          List.dropWhile_cons_of_pos, String.utf8Len_cons]
        congr 1
        omega

/-! ## Field names and specifiers -/

/-- The byte after a name, and its position. -/
def nameEnd (pos : Nat) : Except FormatError NameEnd → Except Fault (UInt8 × Nat)
  | .error e => .error (.defect e)
  | .ok e => .ok (e.stop.toUInt8, pos + String.utf8Len e.name + 1)

theorem nameEnd_map (pos : Nat) (c : Char) (x : Except FormatError NameEnd) :
    nameEnd pos (x.map fun e => { e with name := c :: e.name }) = nameEnd (pos + c.utf8Size) x := by
  cases x with
  | error e => rfl
  | ok e =>
      simp only [Except.map, nameEnd, String.utf8Len_cons]
      congr 2
      omega

theorem pastName_append (h : ∀ b ∈ bytes, b ∉ nameMarks.map Char.toUInt8) (pos : Nat)
    (more : Bytes) : pastName pos (bytes ++ more) = pastName (pos + bytes.length) more := by
  induction bytes generalizing pos with
  | nil => rfl
  | cons b bytes ih =>
      have hb : b ∉ nameMarks.map Char.toUInt8 := h b List.mem_cons_self
      simp only [nameMarks, List.map_cons, List.map_nil, List.mem_cons, List.not_mem_nil, or_false,
        not_or] at hb
      rw [List.cons_append, pastName]
      simp only [hb, if_false, or_self]
      rw [ih fun d hd => h d (List.mem_cons_of_mem b hd), List.length_cons]
      congr 1
      omega

/-- The loop over a name goes through the name, outside brackets and inside. -/
theorem pastName_encode (pos : Nat) (s : List Char) :
    pastName pos (encode s) = nameEnd pos (takeName false s) ∧
      pastName (upTo [']'] pos (encode s)).1 (upTo [']'] pos (encode s)).2 =
        nameEnd pos (takeName true s) := by
  induction s generalizing pos with
  | nil =>
      have hnil : pastName pos [] = .error (.defect .unterminatedField) := by
        rw [pastName]
      exact ⟨hnil, hnil⟩
  | cons c s ih =>
      have houtside : pastName pos (encode (c :: s)) = nameEnd pos (takeName false (c :: s)) := by
        by_cases hmark : c ∈ nameMarks
        · rw [encode_cons_ascii (toNat_lt_of_mem rfl hmark), pastName]
          simp only [nameMarks, List.mem_cons, List.not_mem_nil, or_false] at hmark
          rcases hmark with rfl | rfl | rfl | rfl | rfl
          · rfl
          · rfl
          · rfl
          · rfl
          · -- An opening bracket: the loop inside it goes on.
            have hinside := (ih (pos + 1)).2
            exact hinside.trans (nameEnd_map pos '[' (takeName true s)).symm
        · rw [encode_cons, pastName_append (not_mem_map_toUInt8 rfl hmark),
            String.length_utf8EncodeChar, (ih _).1]
          simp only [nameMarks, List.mem_cons, List.not_mem_nil, or_false, not_or] at hmark
          simp only [takeName, hmark, if_false, or_self, Bool.false_eq_true, decide_false,
            nameEnd_map]
      refine ⟨houtside, ?_⟩
      rw [upTo_encode_cons rfl]
      by_cases hclose : c = ']'
      · subst hclose
        exact houtside
      · have hmark : c ∉ [']'] := by simpa using hclose
        have hbracketed : (c != ']') = true := by simpa using hclose
        rw [if_neg hmark, (ih _).2, takeName, if_pos rfl, hbracketed, nameEnd_map]

/-- Whether a specifier opens a brace, and the position after the brace that ends it. -/
def specEnd (pos : Nat) (nested : Bool) :
    Except FormatError (List Char × List Char) → Except Fault (Bool × Nat)
  | .error e => .error (.defect e)
  | .ok (spec, _) => .ok (nested || '{' ∈ spec, pos + String.utf8Len spec + 1)

theorem specEnd_map (pos : Nat) (nested : Bool) (c : Char)
    (x : Except FormatError (List Char × List Char)) :
    specEnd pos nested (x.map fun (spec, rest) => (c :: spec, rest)) =
      specEnd (pos + c.utf8Size) (nested || c = '{') x := by
  cases x with
  | error e => rfl
  | ok taken =>
      simp only [Except.map, specEnd, String.utf8Len_cons, List.mem_cons, eq_comm (a := '{'),
        Bool.decide_or, Bool.or_assoc]
      congr 2
      omega

theorem pastSpec_append (h : ∀ b ∈ bytes, b ∉ ['{', '}'].map Char.toUInt8) (pos depth : Nat)
    (nested : Bool) (more : Bytes) :
    pastSpec pos depth nested (bytes ++ more) =
      pastSpec (pos + bytes.length) depth nested more := by
  induction bytes generalizing pos with
  | nil => rfl
  | cons b bytes ih =>
      have hb : b ∉ ['{', '}'].map Char.toUInt8 := h b List.mem_cons_self
      simp only [List.map_cons, List.map_nil, List.mem_cons, List.not_mem_nil, or_false,
        not_or] at hb
      rw [List.cons_append, pastSpec, if_neg hb.1, if_neg hb.2,
        ih fun d hd => h d (List.mem_cons_of_mem b hd), List.length_cons]
      congr 1
      omega

/-- The loop over a specifier goes to the brace that ends it. -/
theorem pastSpec_encode (pos depth : Nat) (nested : Bool) (s : List Char) :
    pastSpec pos (depth + 1) nested (encode s) = specEnd pos nested (takeSpec (depth + 1) s) := by
  induction s generalizing pos depth nested with
  | nil => rfl
  | cons c s ih =>
      by_cases hopen : c = '{'
      · subst hopen
        rw [encode_cons_ascii (by decide), pastSpec, if_pos rfl, ih, takeSpec, if_neg (by simp),
          specEnd_map]
        simp only [decide_true, Bool.or_true, if_true]
        rfl
      · by_cases hclose : c = '}'
        · subst hclose
          rw [encode_cons_ascii (by decide), pastSpec, if_neg (by decide), if_pos rfl]
          cases depth with
          | zero => simp [takeSpec, specEnd]
          | succ depth =>
              rw [if_neg (by simp), takeSpec, if_neg (by simp), specEnd_map,
                decide_eq_false (by decide), Bool.or_false]
              exact ih (pos + 1) depth nested
        · rw [encode_cons, pastSpec_append (not_mem_map_toUInt8 rfl (by simp [hopen, hclose])),
            String.length_utf8EncodeChar, ih, takeSpec]
          simp only [hopen, hclose, false_and, if_false, specEnd_map, decide_false, Bool.or_false]

end Cursor
end Template
end FormatCheck
