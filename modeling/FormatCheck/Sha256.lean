import FormatCheck.Text.Encoding
import FormatCheck.Text.Quoted

/-!
# SHA-256

The secure hash of FIPS 180-4 on byte strings, which identifies test plans. A message is padded to
whole blocks of 64 bytes, and each block is folded into a chaining state of eight words.
-/

namespace FormatCheck
namespace Sha256

/-! ## Words -/

/-- Rotation to the right by less than 32 bits. -/
def rotateRight (x : UInt32) (n : UInt32) : UInt32 := (x >>> n) ||| (x <<< (32 - n))

def wordOf (bytes : Bytes) : UInt32 := bytes.foldl (fun w b => (w <<< 8) ||| b.toUInt32) 0

/-- The four big-endian bytes of a word. -/
def bytesOf (w : UInt32) : Bytes :=
  [(w >>> 24).toUInt8, (w >>> 16).toUInt8, (w >>> 8).toUInt8, w.toUInt8]

/-- Bytes cut into words of four. -/
def wordsOf : Bytes → List UInt32
  | a :: b :: c :: d :: rest => wordOf [a, b, c, d] :: wordsOf rest
  | _ => []

/-! ## Padding -/

/-- The length of a message in bits, as the eight bytes at its end. -/
def lengthBytes (size : Nat) : Bytes :=
  (List.range 8).map fun i => UInt8.ofNat (8 * size / 256 ^ (7 - i))

/-- A message with a one bit, zeros up to a whole number of blocks, and its length. -/
def pad (message : Bytes) : Bytes :=
  let size := message.length
  message ++ 0x80 :: (List.replicate ((119 - size % 64) % 64) 0 ++ lengthBytes size)

/-! ## Compression -/

structure State where
  a : UInt32
  b : UInt32
  c : UInt32
  d : UInt32
  e : UInt32
  f : UInt32
  g : UInt32
  h : UInt32
  deriving DecidableEq, Repr

/-- The fractional parts of the square roots of the first eight primes. -/
def initial : State :=
  ⟨0x6a09e667, 0xbb67ae85, 0x3c6ef372, 0xa54ff53a,
    0x510e527f, 0x9b05688c, 0x1f83d9ab, 0x5be0cd19⟩

/-- The fractional parts of the cube roots of the first sixty-four primes. -/
def roundConstants : List UInt32 :=
  [0x428a2f98, 0x71374491, 0xb5c0fbcf, 0xe9b5dba5, 0x3956c25b, 0x59f111f1,
    0x923f82a4, 0xab1c5ed5, 0xd807aa98, 0x12835b01, 0x243185be, 0x550c7dc3,
    0x72be5d74, 0x80deb1fe, 0x9bdc06a7, 0xc19bf174, 0xe49b69c1, 0xefbe4786,
    0x0fc19dc6, 0x240ca1cc, 0x2de92c6f, 0x4a7484aa, 0x5cb0a9dc, 0x76f988da,
    0x983e5152, 0xa831c66d, 0xb00327c8, 0xbf597fc7, 0xc6e00bf3, 0xd5a79147,
    0x06ca6351, 0x14292967, 0x27b70a85, 0x2e1b2138, 0x4d2c6dfc, 0x53380d13,
    0x650a7354, 0x766a0abb, 0x81c2c92e, 0x92722c85, 0xa2bfe8a1, 0xa81a664b,
    0xc24b8b70, 0xc76c51a3, 0xd192e819, 0xd6990624, 0xf40e3585, 0x106aa070,
    0x19a4c116, 0x1e376c08, 0x2748774c, 0x34b0bcb5, 0x391c0cb3, 0x4ed8aa4a,
    0x5b9cca4f, 0x682e6ff3, 0x748f82ee, 0x78a5636f, 0x84c87814, 0x8cc70208,
    0x90befffa, 0xa4506ceb, 0xbef9a3f7, 0xc67178f2]

/-- Appends the next word of a message schedule. -/
def extendSchedule (w : Array UInt32) : Array UInt32 :=
  let earlier (n : Nat) := w.getD (w.size - n) 0
  let x := earlier 15
  let y := earlier 2
  let s0 := rotateRight x 7 ^^^ rotateRight x 18 ^^^ (x >>> 3)
  let s1 := rotateRight y 17 ^^^ rotateRight y 19 ^^^ (y >>> 10)
  w.push (earlier 16 + s0 + earlier 7 + s1)

def schedule (block : List UInt32) : List UInt32 :=
  (Nat.repeat extendSchedule 48 block.toArray).toList

/-- One round, with the sum of its constant and its schedule word. -/
def round (s : State) (k : UInt32) : State :=
  let s1 := rotateRight s.e 6 ^^^ rotateRight s.e 11 ^^^ rotateRight s.e 25
  let choice := (s.e &&& s.f) ^^^ (~~~s.e &&& s.g)
  let t1 := s.h + s1 + choice + k
  let s0 := rotateRight s.a 2 ^^^ rotateRight s.a 13 ^^^ rotateRight s.a 22
  let majority := (s.a &&& s.b) ^^^ (s.a &&& s.c) ^^^ (s.b &&& s.c)
  ⟨t1 + s0 + majority, s.a, s.b, s.c, s.d + t1, s.e, s.f, s.g⟩

def State.add (s t : State) : State :=
  ⟨s.a + t.a, s.b + t.b, s.c + t.c, s.d + t.d, s.e + t.e, s.f + t.f, s.g + t.g, s.h + t.h⟩

/-- Folds one block into the state. -/
def compress (s : State) (block : Bytes) : State :=
  s.add ((List.zipWith (· + ·) roundConstants (schedule (wordsOf block))).foldl round s)

/-- Folds all whole blocks into the state. -/
def compressAll (s : State) (message : Bytes) : State :=
  let block := message.take 64
  if block.length = 64 then compressAll (compress s block) (message.drop 64) else s
termination_by message.length
decreasing_by
  rw [List.length_drop]
  have : (message.take 64).length = 64 := by assumption
  rw [List.length_take] at this
  omega

/-! ## Digest -/

def State.bytes (s : State) : Bytes :=
  [s.a, s.b, s.c, s.d, s.e, s.f, s.g, s.h].flatMap bytesOf

/-- The digest of a message: 32 bytes. -/
def digest (message : Bytes) : Bytes := (compressAll initial (pad message)).bytes

/-- Bytes in lower-case hexadecimal, two digits each. -/
def hexadecimal (bytes : Bytes) : String :=
  String.ofList (bytes.flatMap fun b => Text.hexText 2 b.toNat)

end Sha256
end FormatCheck
