import FormatCheck.Text.Encoding
import Mathlib.Tactic.SplitIfs

/-!
# Encodings read back

The UTF-8 bytes of ASCII texts are their code points; two texts are never encoded alike, none has the
byte `0xff`, and a zero byte is the null character. Latin-1 writes exactly the texts below `U+0100`,
and its reader, which accepts every byte, yields no others.
-/

namespace FormatCheck
namespace Text

/-! ## UTF-8 -/

theorem utf8_ofList (s : List Char) : utf8 (String.ofList s) = s.flatMap String.utf8EncodeChar := by
  simp [utf8, String.toUTF8, List.utf8Encode]

theorem utf8Size_eq_one_iff {c : Char} : c.utf8Size = 1 ↔ c.toNat < 128 := by
  rw [Char.utf8Size_eq_one_iff, UInt32.le_iff_toNat_le]
  exact Nat.lt_succ_iff.symm

/-- An ASCII text is encoded by the bytes of its code points. -/
theorem utf8_ofList_ascii {s : List Char} (hs : ∀ c ∈ s, c.toNat < 128) :
    utf8 (String.ofList s) = s.map Char.toUInt8 := by
  rw [utf8_ofList]
  induction s with
  | nil => rfl
  | cons c s ih =>
      have hc : c.utf8Size = 1 := utf8Size_eq_one_iff.mpr (hs c List.mem_cons_self)
      rw [List.flatMap_cons, ih fun d hd => hs d (List.mem_cons_of_mem c hd),
        String.utf8EncodeChar_eq_singleton hc]
      rfl

theorem utf8_eq_flatMap (s : String) : utf8 s = s.toList.flatMap String.utf8EncodeChar := by
  rw [← utf8_ofList, String.ofList_toList]

/-- Only the text itself is encoded as it is. -/
theorem ofUtf8?_eq_some_iff {bytes : Bytes} {s : String} :
    ofUtf8? bytes = some s ↔ utf8 s = bytes := by
  constructor
  · intro h
    unfold ofUtf8? String.fromUTF8? at h
    split at h
    · next hvalid =>
      rw [← Option.some.inj h]
      rfl
    · cases h
  · rintro rfl
    exact ofUtf8?_utf8 s

theorem utf8_inj {s t : String} : utf8 s = utf8 t ↔ s = t := by
  refine ⟨fun h => ?_, congrArg utf8⟩
  have hread : ofUtf8? (utf8 t) = some s := ofUtf8?_eq_some_iff.mpr h
  exact Option.some.inj (hread.symm.trans (ofUtf8?_utf8 t))

/-- No byte of an encoding is as large as `0xf8`, and those below `0x80` are characters by
themselves. -/
theorem toNat_of_mem_utf8EncodeChar {c : Char} {b : UInt8} (hb : b ∈ String.utf8EncodeChar c) :
    b.toNat < 0xf8 ∧ (b.toNat < 0x80 → c.toNat = b.toNat) := by
  have hbyte : ∀ n < 256, (UInt8.ofNat n).toNat = n := fun n hn => Nat.mod_eq_of_lt hn
  have hbeyond : ∀ n, 0x80 ≤ n ∧ n < 0xf8 → b = UInt8.ofNat n →
      b.toNat < 0xf8 ∧ (b.toNat < 0x80 → c.toNat = b.toNat) := by
    rintro n ⟨hlow, hhigh⟩ rfl
    rw [hbyte n (by omega)]
    exact ⟨hhigh, fun hascii => absurd hascii (Nat.not_lt.mpr hlow)⟩
  -- The cases are those of the encoder: one byte, or a first byte and one to three continuations.
  unfold String.utf8EncodeChar at hb
  dsimp only at hb
  split_ifs at hb with hone htwo hthree <;>
    simp only [List.mem_cons, List.not_mem_nil, or_false] at hb
  · rw [hb, hbyte _ (by omega)]
    exact ⟨by omega, fun _ => rfl⟩
  · rcases hb with hlead | hlast
    · exact hbeyond _ (by omega) hlead
    · exact hbeyond _ (by omega) hlast
  · rcases hb with hlead | hnext | hlast
    · exact hbeyond _ (by omega) hlead
    · exact hbeyond _ (by omega) hnext
    · exact hbeyond _ (by omega) hlast
  · rcases hb with hlead | hnext | hthird | hlast
    · exact hbeyond _ (by omega) hlead
    · exact hbeyond _ (by omega) hnext
    · exact hbeyond _ (by omega) hthird
    · exact hbeyond _ (by omega) hlast

/-- No text has the byte `0xff`. -/
theorem ff_notMem_utf8 (s : String) : 0xff ∉ utf8 s := by
  rw [utf8_eq_flatMap, List.mem_flatMap]
  rintro ⟨c, _, hb⟩
  exact absurd (toNat_of_mem_utf8EncodeChar hb).1 (by decide)

/-- Only the null character is encoded with a zero byte. -/
theorem zero_mem_utf8_iff {s : String} : 0 ∈ utf8 s ↔ Char.ofNat 0 ∈ s.toList := by
  rw [utf8_eq_flatMap, List.mem_flatMap]
  constructor
  · rintro ⟨c, hc, hb⟩
    have hcode : c.toNat = 0 := (toNat_of_mem_utf8EncodeChar hb).2 (by decide)
    rwa [← hcode, Char.ofNat_toNat]
  · intro hc
    exact ⟨_, hc, List.mem_singleton_self 0⟩

theorem utf8_singleton_ascii {c : Char} (hc : c.toNat < 128) :
    utf8 (String.singleton c) = [c.toUInt8] := by
  simpa using utf8_ofList_ascii (s := [c]) (by simpa using hc)

/-- Every character has a byte of its own. -/
theorem length_toList_le (s : String) : s.toList.length ≤ (utf8 s).length := by
  rw [utf8_eq_flatMap]
  induction s.toList with
  | nil =>
      exact Nat.le_refl 0
  | cons c cs ih =>
      have hc : 1 ≤ (String.utf8EncodeChar c).length := by
        rw [String.length_utf8EncodeChar]
        exact c.utf8Size_pos
      rw [List.flatMap_cons, List.length_append, List.length_cons]
      omega

/-- A text of one byte is one ASCII character. -/
theorem exists_ascii_of_utf8_eq {s : String} {b : UInt8} (h : utf8 s = [b]) :
    ∃ c : Char, c.toNat < 128 ∧ s = String.singleton c := by
  have hlength : s.toList.length ≤ 1 := by
    simpa [h] using length_toList_le s
  rw [utf8_eq_flatMap] at h
  match hs : s.toList with
  | [] =>
      rw [hs] at h
      cases h
  | [c] =>
      have hencoded : String.utf8EncodeChar c = [b] := by
        rw [hs] at h
        simpa using h
      have hsize : c.utf8Size = 1 := by
        rw [← String.length_utf8EncodeChar, hencoded]
        rfl
      refine ⟨c, utf8Size_eq_one_iff.mp hsize, ?_⟩
      rw [← String.ofList_toList (s := s), hs]
      rfl
  | c :: d :: rest =>
      rw [hs] at hlength
      exact absurd hlength (by simp)

/-! ## Latin-1 -/

theorem toNat_ofNat_toNat (b : UInt8) : (Char.ofNat b.toNat).toNat = b.toNat := by
  have hb : b.toNat < 256 := b.toNat_lt
  have hvalid : b.toNat.isValidChar := Or.inl (by omega)
  rw [Char.ofNat, dif_pos hvalid]
  rfl

theorem toNat_lt_of_mem_latin1 {bytes : Bytes} {c : Char} (hc : c ∈ (latin1 bytes).toList) :
    c.toNat < 256 := by
  rw [latin1, String.toList_ofList] at hc
  rcases List.mem_map.mp hc with ⟨b, _, rfl⟩
  rw [toNat_ofNat_toNat]
  exact b.toNat_lt

/-- The byte of the character that a byte is read as is the byte. -/
theorem toUInt8_ofNat_toNat (b : UInt8) : (Char.ofNat b.toNat).toUInt8 = b := by
  have hbyte : (Char.ofNat b.toNat).toUInt8.toNat = (Char.ofNat b.toNat).toNat % 256 := rfl
  rw [← UInt8.toNat_inj, hbyte, toNat_ofNat_toNat]
  exact Nat.mod_eq_of_lt b.toNat_lt

/-- Reading a byte of a character below `U+0100` gives the character. -/
theorem ofNat_toNat_toUInt8 {c : Char} (hc : c.toNat < 256) : Char.ofNat c.toUInt8.toNat = c := by
  have hbyte : c.toUInt8.toNat = c.toNat := Nat.mod_eq_of_lt hc
  rw [hbyte, Char.ofNat_toNat]

theorem latin1_map_toUInt8 {s : String} (hs : ∀ c ∈ s.toList, c.toNat < 256) :
    latin1 (s.toList.map Char.toUInt8) = s := by
  have hmap : (s.toList.map Char.toUInt8).map (fun b => Char.ofNat b.toNat) = s.toList := by
    rw [List.map_map]
    refine (List.map_congr_left fun c hc => ?_).trans (List.map_id _)
    exact ofNat_toNat_toUInt8 (hs c hc)
  rw [latin1, hmap, String.ofList_toList]

/-- A single byte is read as UTF-8 if it is ASCII, and then as Latin-1 reads it. -/
theorem ofUtf8?_singleton (b : UInt8) :
    ofUtf8? [b] = if b.toNat < 128 then some (latin1 [b]) else none := by
  split
  · next hb =>
    have hascii : (Char.ofNat b.toNat).toNat < 128 := by
      rw [toNat_ofNat_toNat]
      exact hb
    rw [ofUtf8?_eq_some_iff]
    calc
      utf8 (latin1 [b]) = [(Char.ofNat b.toNat).toUInt8] := utf8_singleton_ascii hascii
      _ = [b] := by rw [toUInt8_ofNat_toNat]
  · next hb =>
    rw [Option.eq_none_iff_forall_ne_some]
    intro s hs
    have hbytes : utf8 s = [b] := ofUtf8?_eq_some_iff.mp hs
    rcases exists_ascii_of_utf8_eq hbytes with ⟨c, hc, rfl⟩
    have hbyte : c.toUInt8 = b := by
      simpa [utf8_singleton_ascii hc] using hbytes
    have hcode : b.toNat = c.toNat := by
      rw [← hbyte]
      exact Nat.mod_eq_of_lt (Nat.lt_trans hc (by decide))
    exact hb (hcode ▸ hc)

theorem toLatin1?_of_lt {s : String} (hs : ∀ c ∈ s.toList, c.toNat < 256) :
    toLatin1? s = some (s.toList.map Char.toUInt8) := by
  unfold toLatin1?
  generalize s.toList = cs at hs ⊢
  induction cs with
  | nil => rfl
  | cons c cs ih =>
      have hc : c.toNat < 256 := hs c List.mem_cons_self
      rw [List.mapM_cons, if_pos hc, ih fun d hd => hs d (List.mem_cons_of_mem c hd)]
      rfl

end Text
end FormatCheck
