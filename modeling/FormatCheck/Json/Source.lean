import FormatCheck.Numeral
import FormatCheck.Text.Encoding

/-!
# JSON texts

The grammar of RFC 8259 as a reader from characters to a tree that keeps what was written: numbers
as their digits, strings with lone surrogate escapes marked, members in order with repeated keys.
What the tree means as a value, and which trees mean none, is decided in `Json.Reader`; a text whose
tree has no value there can still be read past, as the unknown members of a record are.
-/

namespace FormatCheck
namespace Json

structure NumberSource where
  negative : Bool
  whole : List Char
  /-- The digits after the point, none if there is no point. -/
  fraction : List Char
  /-- Whether the exponent is negative, and its digits. -/
  exponent : Option (Bool × List Char)
  deriving DecidableEq, Repr

/-- A JSON text as written. A string is `none` if it holds a lone surrogate. -/
inductive Source where
  | null
  | bool (b : Bool)
  | number (n : NumberSource)
  | string (s : Option String)
  | array (items : List Source)
  | object (members : List (Option String × Source))
  deriving Repr

/-! ## Blanks and words -/

def isBlank (c : Char) : Bool := c = ' ' || c = '\t' || c = '\n' || c = '\r'

def skipBlanks (s : List Char) : List Char := s.dropWhile isBlank

/-- Takes a fixed word off the front of a text. -/
def takeWord : List Char → List Char → Option (List Char)
  | [], s => some s
  | c :: word, c' :: s => if c = c' then takeWord word s else none
  | _ :: _, [] => none

/-! ## Numbers -/

/-- Takes a run of digits that must not be empty. -/
def takeDigits? (s : List Char) : Option (List Char × List Char) :=
  let run := s.takeWhile Char.isDigit
  if run = [] then none else some (run, s.dropWhile Char.isDigit)

/-- Takes the digits before the point, without a leading zero unless alone. -/
def takeWhole? (s : List Char) : Option (List Char × List Char) := do
  let (run, rest) ← takeDigits? s
  if run.head? = some '0' ∧ run.length ≠ 1 then none else some (run, rest)

def takeFraction? : List Char → Option (List Char × List Char)
  | '.' :: s => takeDigits? s
  | s => some ([], s)

def takeExponent? : List Char → Option (Option (Bool × List Char) × List Char)
  | c :: s =>
    if c = 'e' ∨ c = 'E' then
      let (negative, s) := match s with
        | '-' :: s => (true, s)
        | '+' :: s => (false, s)
        | s => (false, s)
      (takeDigits? s).map fun (run, rest) => (some (negative, run), rest)
    else some (none, c :: s)
  | [] => some (none, [])

def takeNumber? (s : List Char) : Option (NumberSource × List Char) := do
  let (negative, s) := match s with
    | '-' :: s => (true, s)
    | s => (false, s)
  let (whole, s) ← takeWhole? s
  let (fraction, s) ← takeFraction? s
  let (exponent, s) ← takeExponent? s
  some (⟨negative, whole, fraction, exponent⟩, s)

/-! ## Strings -/

/-- A character of a string as written: itself, or a 16-bit unit of an escape. -/
inductive StringUnit where
  | char (c : Char)
  | escaped (unit : Nat)
  deriving DecidableEq, Repr

def hexValue? (c : Char) : Option Nat :=
  if c.isDigit then some (c.toNat - 48)
  else if 'a' ≤ c ∧ c ≤ 'f' then some (c.toNat - 87)
  else if 'A' ≤ c ∧ c ≤ 'F' then some (c.toNat - 55)
  else none

def shortEscape? (c : Char) : Option Char :=
  if c = '"' ∨ c = '\\' ∨ c = '/' then some c
  else if c = 'b' then some (Char.ofNat 8)
  else if c = 'f' then some (Char.ofNat 12)
  else if c = 'n' then some '\n'
  else if c = 'r' then some '\r'
  else if c = 't' then some '\t'
  else none

/-- Takes the units of a string up to its closing quote. -/
def takeUnits? : List Char → Option (List StringUnit × List Char)
  | [] => none
  | '"' :: s => some ([], s)
  | '\\' :: 'u' :: a :: b :: c :: d :: s => do
    let ds ← [a, b, c, d].mapM hexValue?
    let (units, rest) ← takeUnits? s
    some (.escaped (Numeral.ofDigits 16 ds) :: units, rest)
  | '\\' :: e :: s => do
    let c ← shortEscape? e
    let (units, rest) ← takeUnits? s
    some (.char c :: units, rest)
  | c :: s =>
    if c = '\\' ∨ c.toNat < 0x20 then none
    else do
      let (units, rest) ← takeUnits? s
      some (.char c :: units, rest)

/-- The characters that units spell, a high and a low surrogate together one; a surrogate without
its partner spells none. -/
def assemble? : List StringUnit → Option (List Char)
  | [] => some []
  | .char c :: units => (assemble? units).map (c :: ·)
  | .escaped high :: .escaped low :: units =>
    if 0xd800 ≤ high ∧ high < 0xdc00 then
      if 0xdc00 ≤ low ∧ low < 0xe000 then
        (assemble? units).map
          (Char.ofNat (0x10000 + (high - 0xd800) * 0x400 + (low - 0xdc00)) :: ·)
      else none
    else if 0xdc00 ≤ high ∧ high < 0xe000 then none
    else (assemble? (.escaped low :: units)).map (Char.ofNat high :: ·)
  | .escaped unit :: units =>
    if 0xd800 ≤ unit ∧ unit < 0xe000 then none
    else (assemble? units).map (Char.ofNat unit :: ·)

/-- Takes a string after its opening quote. -/
def takeString? (s : List Char) : Option (Option String × List Char) :=
  (takeUnits? s).map fun (units, rest) => ((assemble? units).map String.ofList, rest)

/-! ## Values -/

mutual

/-- Takes a value, blanks before it skipped. Every nested call has consumed a character since the
last, up to two calls a character. -/
def takeValue? : (steps : Nat) → List Char → Option (Source × List Char)
  | 0, _ => none
  | steps + 1, s =>
    match skipBlanks s with
    | '{' :: s =>
      match skipBlanks s with
      | '}' :: s => some (.object [], s)
      | s => (takeMembers? steps s).map fun (members, rest) => (.object members, rest)
    | '[' :: s =>
      match skipBlanks s with
      | ']' :: s => some (.array [], s)
      | s => (takeItems? steps s).map fun (items, rest) => (.array items, rest)
    | '"' :: s => (takeString? s).map fun (text, rest) => (.string text, rest)
    | 'n' :: s => (takeWord ['u', 'l', 'l'] s).map fun rest => (.null, rest)
    | 't' :: s => (takeWord ['r', 'u', 'e'] s).map fun rest => (.bool true, rest)
    | 'f' :: s => (takeWord ['a', 'l', 's', 'e'] s).map fun rest => (.bool false, rest)
    | s => (takeNumber? s).map fun (n, rest) => (.number n, rest)

def takeItems? : (steps : Nat) → List Char → Option (List Source × List Char)
  | 0, _ => none
  | steps + 1, s => do
    let (item, s) ← takeValue? steps s
    match skipBlanks s with
    | ',' :: s => (takeItems? steps s).map fun (items, rest) => (item :: items, rest)
    | ']' :: s => some ([item], s)
    | _ => none

def takeMembers? : (steps : Nat) → List Char → Option (List (Option String × Source) × List Char)
  | 0, _ => none
  | steps + 1, s =>
    match skipBlanks s with
    | '"' :: s => do
      let (key, s) ← takeString? s
      match skipBlanks s with
      | ':' :: s =>
        let (value, s) ← takeValue? steps s
        match skipBlanks s with
        | ',' :: s =>
          (takeMembers? steps s).map fun (members, rest) => ((key, value) :: members, rest)
        | '}' :: s => some ([(key, value)], s)
        | _ => none
      | _ => none
    | _ => none

end

/-- Reads a whole text as one value with blanks around it. -/
def readSource? (text : String) : Option Source := do
  let s := text.toList
  let (source, rest) ← takeValue? (2 * s.length + 2) s
  if skipBlanks rest = [] then some source else none

end Json
end FormatCheck
