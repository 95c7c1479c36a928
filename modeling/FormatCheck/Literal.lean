import FormatCheck.Decimal.Reader
import FormatCheck.SemanticType
import FormatCheck.Text.Encoding
import FormatCheck.Value

/-!
# Literals

The form in which a value of a semantic type is passed to a subject: decimal integers, the shortest
digits of a float, `true` and `false`, and for the text and character types raw bytes. A number of a
character type is one byte, negative ones in two's complement.

`encode` and `decode` are the two directions. Decoding accepts more than encoding produces: signs,
leading zeros and every spelling of a float.
-/

namespace FormatCheck

inductive LiteralError where
  /-- The kind of the value does not belong to the type. -/
  | unsupportedType (type : SemanticType) (kind : ValueKind)
  /-- A number with no single-byte encoding. -/
  | charOutOfRange (value : String)
  | outOfRange (type : SemanticType) (value : String)
  | unknownTag (tag : String)
  | invalid (type : SemanticType) (literal : String) (reason : String)
  deriving DecidableEq, Repr

namespace LiteralError

def message : LiteralError → String
  | unsupportedType type kind =>
    "unsupported semantic type " ++ Text.inDoubleQuotes type.tag ++ " for " ++ kind.name ++ " value"
  | charOutOfRange value =>
    "value " ++ value ++ " is not representable as a single character"
  | outOfRange type value => "value " ++ value ++ " is out of range for " ++ type.tag
  | unknownTag tag => "unknown semantic type tag " ++ Text.inDoubleQuotes tag
  | invalid type literal reason =>
    "invalid " ++ type.tag ++ " literal " ++ Text.inDoubleQuotes literal ++ ": " ++ reason

end LiteralError

namespace Literal

/-! ## Encoding -/

def charByte (z : Int) : Except LiteralError UInt8 :=
  if -128 ≤ z ∧ z < 256 then .ok (UInt8.ofNat (z % 256).toNat)
  else .error (.charOutOfRange (Numeral.showInt z))

/-- Refuses an integer outside the range of its type. -/
def checkRange (type : SemanticType) (z : Int) : Except LiteralError Unit :=
  match type.intRange? with
  | some range =>
    if range.contains z then .ok () else .error (.outOfRange type (Numeral.showInt z))
  | none => .error (.outOfRange type (Numeral.showInt z))

/-- The text of a float's magnitude. A single-precision type takes only floats that survive being
narrowed, and writes the digits that suffice there. -/
def magnitudeText (type : SemanticType) (x : Binary64) : Except LiteralError (List Char) :=
  match x.magnitude with
  | .nan => .ok ['n', 'a', 'n']
  | .infinite => .ok ['i', 'n', 'f']
  | .finite k =>
    if type = .float32 then
      let narrow : Magnitude .binary32 := x.magnitude.convert
      match narrow with
      | .finite k' =>
        -- The digits are those of the narrowed float, fewer than double precision would need.
        if (narrow.convert : Magnitude .binary64) = x.magnitude then .ok (Decimal.shortestText k')
        else .error (.outOfRange type (String.ofList (Decimal.shortestText k)))
      | _ => .error (.outOfRange type (String.ofList (Decimal.shortestText k)))
    else .ok (Decimal.shortestText k)

/-- The literal of a float; the sign is written for every magnitude. -/
def floatText (type : SemanticType) (x : Binary64) : Except LiteralError (List Char) := do
  let digits ← magnitudeText type x
  .ok (if x.negative then '-' :: digits else digits)

def asciiBytes (s : List Char) : Bytes := s.map Char.toUInt8

/-- The literal of a value of a type. -/
def encode (type : SemanticType) (v : Value) : Except LiteralError Bytes :=
  let unsupported : Except LiteralError Bytes := .error (.unsupportedType type v.kind)
  if type.isCharacterEncoded then
    match v with
    | .str s => .ok (Text.utf8 s)
    | .int i => (charByte i.toInt).map fun b => [b]
    | .uint n => (charByte n.toNat).map fun b => [b]
    | .bool _ | .float _ => unsupported
  else
    match type.category, v with
    -- The type and not the variant of the value says which integers it takes.
    | .bool, .bool b => .ok (asciiBytes (if b then "true".toList else "false".toList))
    | .signedInt, .int i | .unsignedInt, .int i => do
      checkRange type i.toInt
      .ok (asciiBytes (Numeral.signedDecimal i.toInt))
    | .signedInt, .uint n | .unsignedInt, .uint n => do
      checkRange type n.toNat
      .ok (asciiBytes (Numeral.signedDecimal n.toNat))
    | .float, .float x => (floatText type x).map asciiBytes
    | .text, .str s => .ok (Text.utf8 s)
    | _, _ => unsupported

/-! ## Decoding -/

def readBool? (s : String) : Option Bool :=
  if s = "true" then some true else if s = "false" then some false else none

/-- Integers are read within 128 bits, signed. -/
def readInteger? (s : List Char) : Option Int :=
  match Numeral.integer? s with
  | some z => if (IntRange.signed 128).contains z then some z else none
  | none => none

/-- A float without its sign: `nan`, `inf`, or a numeral, which a single-precision type rounds to
single precision. -/
def readMagnitude? (type : SemanticType) (s : List Char) : Option (Magnitude .binary64) :=
  if s = ['n', 'a', 'n'] then some .nan
  else if s = ['i', 'n', 'f'] then some .infinite
  else (Decimal.readScientific? s).map fun x =>
    if type = .float32 then (x.magnitude .binary32).convert else x.magnitude .binary64

/-- A float with an optional sign. -/
def readFloat? (type : SemanticType) (s : List Char) : Option Binary64 :=
  let (negative, body) := match s with
    | '-' :: body => (true, body)
    | '+' :: body => (false, body)
    | body => (false, body)
  (readMagnitude? type body).map fun m => ⟨negative, m⟩

/-- The value of a literal of a type. -/
def decode (type : SemanticType) (literal : Bytes) : Except LiteralError Value :=
  let invalid (reason : String) : Except LiteralError Value :=
    .error (.invalid type (Text.ofUtf8Replacing literal) reason)
  let malformed := invalid "malformed literal"
  if type.category = .char then
    match literal with
    -- The byte is a code point, whatever it would begin in UTF-8.
    | [_] => .ok (.str (Text.latin1 literal))
    | _ => invalid "expected exactly one character"
  else
    match Text.ofUtf8? literal with
    | none => invalid "not valid UTF-8"
    | some text =>
      match type.category with
      | .text => .ok (.str text)
      | .bool => match readBool? text with
        | some b => .ok (.bool b)
        | none => malformed
      | .signedInt => match readInteger? text.toList with
        | some z => (checkRange type z).map fun _ => .int (Int64.ofInt z)
        | none => malformed
      | .unsignedInt => match readInteger? text.toList with
        | some z => (checkRange type z).map fun _ => .uint (UInt64.ofNat z.toNat)
        | none => malformed
      | .float => match readFloat? type text.toList with
        | some x => .ok (.float x)
        | none => malformed
      | .char => malformed

end Literal
end FormatCheck
