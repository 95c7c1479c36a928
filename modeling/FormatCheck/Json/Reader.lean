import FormatCheck.Json
import FormatCheck.Json.Source

/-!
# Reading JSON values

The value of a JSON text. A number without fraction and exponent is an integer if it has 64 bits;
every other number is a float, and one that overflows has no value. Nesting is limited, strings must
spell characters, and of members with one key the last counts.

The float of a number is found from a significand of 64 bits: digits are collected while they fit,
further ones only count towards the exponent, and the significand is then multiplied or divided by
powers of ten with a rounding each time. For up to fifteen digits and small exponents that is the
nearest float; in general it may be a neighbour of it.
-/

namespace FormatCheck
namespace Json

/-! ## Numbers -/

/-- Numbers of 64 bits are below this. -/
def wordBound : Nat := 2 ^ 64

/-- Appends digits to a significand while it stays a 64-bit number, and counts those appended. -/
def absorb (significand : Nat) : List Char → Nat × Nat
  | [] => (significand, 0)
  | c :: s =>
    let next := significand * 10 + Numeral.digitValue c
    if next < wordBound then
      let (result, count) := absorb next s
      (result, count + 1)
    else (significand, 0)

/-- The greatest power of ten that is a finite float. -/
def powerBound : Nat := 308

/-- The units of the float nearest to a power of ten. -/
def powerUnits (e : Nat) : Nat := Format.binary64.units (Format.binary64.nearest (10 ^ e) 1)

/-- Divides a magnitude by a power of ten, `powerBound` powers at a time. -/
def divideByPower (m : Magnitude .binary64) (e : Nat) : Magnitude .binary64 :=
  if e ≤ powerBound then m.scaleBy Format.binary64.one (powerUnits e)
  else if m = .ofRank 0 then m
  else divideByPower (m.scaleBy Format.binary64.one (powerUnits powerBound)) (e - powerBound)
termination_by e
decreasing_by simp only [powerBound] at *; omega

/-- Multiplies a magnitude by a power of ten; an overflow has no value. -/
def multiplyByPower? (m : Magnitude .binary64) (e : Nat) : Option (Magnitude .binary64) :=
  if e ≤ powerBound then
    let product := m.scaleBy (powerUnits e) Format.binary64.one
    if product = .infinite then none else some product
  else if m = .ofRank 0 then some m
  else none

/-- The magnitude of `significand × 10 ^ exponent`. -/
def magnitudeOf? (significand : Nat) (exponent : Int) : Option (Magnitude .binary64) :=
  let m := Magnitude.ofRatio significand 1
  if 0 ≤ exponent then multiplyByPower? m exponent.toNat
  else some (divideByPower m (-exponent).toNat)

/-- Exponents are below this; a greater one overflows, or makes the number zero. -/
def exponentBound : Nat := 2 ^ 31

/-- The magnitude of a number as a float. -/
def NumberSource.magnitude? (n : NumberSource) : Option (Magnitude .binary64) :=
  let (significand, taken) := absorb 0 n.whole
  let (significand, places) := absorb significand n.fraction
  let shift : Int := (n.whole.length - taken : Nat) - places
  match n.exponent with
  | none => magnitudeOf? significand shift
  | some (negative, run) =>
    let e := Numeral.readDecimal run
    if e < exponentBound then
      magnitudeOf? significand (if negative then shift - e else shift + e)
    else if significand = 0 ∨ negative then some (.ofRank 0)
    else none

def NumberSource.isIntegral (n : NumberSource) : Bool := n.fraction = [] && n.exponent = none

/-- The value of a number. Minus zero is a float, as is an integer beyond 64 bits. -/
def NumberSource.value? (n : NumberSource) : Option JsonNumber :=
  let whole := Numeral.readDecimal n.whole
  if n.isIntegral ∧ n.negative = false ∧ whole < wordBound then some (.integer whole)
  else if n.isIntegral ∧ n.negative ∧ 0 < whole ∧ whole ≤ 2 ^ 63 then some (.integer (-whole))
  else n.magnitude?.map fun m => .float ⟨n.negative, m⟩

/-! ## Values -/

/-- Lists and objects nested this deep have no value. -/
def depthLimit : Nat := 128

mutual

/-- The value of a tree in which `depth` more levels may open. -/
def Source.valueAt? (depth : Nat) : Source → Option Json
  | .null => some .null
  | .bool b => some (.bool b)
  | .number n => n.value?.map .number
  | .string s => s.map .string
  | .array items =>
    if depth ≤ 1 then none else (itemsAt? (depth - 1) items).map .array
  | .object members =>
    if depth ≤ 1 then none
    else (membersAt? (depth - 1) members).map fun ms => .object (sortMembers ms)

def itemsAt? (depth : Nat) : List Source → Option (List Json)
  | [] => some []
  | item :: items => do
    let j ← item.valueAt? depth
    let js ← itemsAt? depth items
    some (j :: js)

def membersAt? (depth : Nat) : List (Option String × Source) → Option (List (String × Json))
  | [] => some []
  | (key, item) :: members => do
    let k ← key
    let j ← item.valueAt? depth
    let ms ← membersAt? depth members
    some ((k, j) :: ms)

end

def Source.value? (source : Source) : Option Json := source.valueAt? depthLimit

def read? (text : String) : Option Json := do
  let source ← readSource? text
  source.value?

/-! ## Records -/

/-- The value of a record's field. An object there names an alternative by its one key, so one with
a second member is refused, be the key the same. -/
def Source.fieldValue? : Source → Option Json
  | .object (_ :: _ :: _) => none
  | source => source.value?

/-- The members of a record with the given field names: members of other names are passed over, and
a repeated one is refused. -/
def knownMembers? (names : List String) :
    List (Option String × Source) → Option (List (String × Json))
  | [] => some []
  | (key, source) :: members => do
    let k ← key
    let rest ← knownMembers? names members
    if k ∈ names then
      let j ← source.fieldValue?
      if (rest.lookup k).isSome then none else some ((k, j) :: rest)
    else some rest

/-- Reads a JSON text as a record with the given field names, an object or an array of the fields in
order. -/
def readRecord? (names : List String) (text : String) : Option Json := do
  match ← readSource? text with
  | .object members => (knownMembers? names members).map .object
  | .array items => (items.mapM Source.fieldValue?).map .array
  | _ => none

end Json
end FormatCheck
