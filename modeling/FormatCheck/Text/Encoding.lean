/-!
# Texts and bytes

Three readings of a byte string: strict UTF-8, UTF-8 with each maximal ill-formed part replaced by
one `U+FFFD`, and Latin-1, where every byte is the character of the same number.

The replacing reader is a machine whose state says which bytes may come next in the character begun
so far. A byte outside that range ends the ill-formed part and is read again as the first byte of a
character, so every part is replaced exactly once.
-/

namespace FormatCheck

abbrev Bytes := List UInt8

namespace Text

/-- The UTF-8 bytes of a string. -/
def utf8 (s : String) : Bytes := s.toUTF8.data.toList

/-- The string that well-formed UTF-8 encodes. -/
def ofUtf8? (bytes : Bytes) : Option String := String.fromUTF8? ⟨bytes.toArray⟩

/-- Reading the encoding of a string gives the string. -/
theorem ofUtf8?_utf8 (s : String) : ofUtf8? (utf8 s) = some s := by
  simpa [ofUtf8?, utf8, String.fromUTF8?, String.fromUTF8] using s.isValidUTF8

/-- Each byte as the character of the same number. -/
def latin1 (bytes : Bytes) : String := String.ofList (bytes.map fun b => Char.ofNat b.toNat)

/-- The bytes of a text all of whose characters are below `U+0100`. -/
def toLatin1? (s : String) : Option Bytes :=
  s.toList.mapM fun c => if c.toNat < 256 then some c.toUInt8 else none

/-! ## Replacing reader -/

/-- What stands for an ill-formed part. -/
def replacement : Char := Char.ofNat 0xfffd

/-- A character begun: the bytes owed, the range of the next one, and the code point so far. -/
structure Begun where
  owed : Nat
  low : UInt8
  high : UInt8
  code : Nat
  deriving DecidableEq, Repr

/-- What the first byte of a character says. -/
inductive Lead where
  | whole (c : Char)
  | begun (p : Begun)
  | illFormed
  deriving DecidableEq, Repr

/-- Reads the first byte of a character. The ranges of the second byte leave out overlong forms,
surrogates and code points past `U+10FFFF`. -/
def lead (b : UInt8) : Lead :=
  if b < 0x80 then .whole (Char.ofNat b.toNat)
  else if b < 0xc2 then .illFormed
  else if b < 0xe0 then .begun ⟨1, 0x80, 0xbf, b.toNat - 0xc0⟩
  else if b = 0xe0 then .begun ⟨2, 0xa0, 0xbf, 0⟩
  else if b = 0xed then .begun ⟨2, 0x80, 0x9f, 0xd⟩
  else if b < 0xf0 then .begun ⟨2, 0x80, 0xbf, b.toNat - 0xe0⟩
  else if b = 0xf0 then .begun ⟨3, 0x90, 0xbf, 0⟩
  else if b < 0xf4 then .begun ⟨3, 0x80, 0xbf, b.toNat - 0xf0⟩
  else if b = 0xf4 then .begun ⟨3, 0x80, 0x8f, 4⟩
  else .illFormed

/-- Reads bytes after the part of a character in `pending`. -/
def decodeReplacing (pending : Option Begun) : Bytes → List Char
  | [] => if pending.isSome then [replacement] else []
  | b :: bs =>
    let fresh (b : UInt8) : List Char :=
      match lead b with
      | .whole c => c :: decodeReplacing none bs
      | .begun p => decodeReplacing (some p) bs
      | .illFormed => replacement :: decodeReplacing none bs
    match pending with
    | none => fresh b
    | some p =>
      if p.low ≤ b ∧ b ≤ p.high then
        let code := p.code * 64 + (b.toNat - 0x80)
        if p.owed ≤ 1 then Char.ofNat code :: decodeReplacing none bs
        else decodeReplacing (some ⟨p.owed - 1, 0x80, 0xbf, code⟩) bs
      else replacement :: fresh b

/-- The text of a byte string, each maximal ill-formed part shown as one replacement character. -/
def ofUtf8Replacing (bytes : Bytes) : String := String.ofList (decodeReplacing none bytes)

end Text
end FormatCheck
