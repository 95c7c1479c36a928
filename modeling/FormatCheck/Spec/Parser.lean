import FormatCheck.Spec

/-!
# Reading format specifiers

Each part of the grammar is taken from the front of the text in turn, so the first defect met from
left to right is the one reported. A character before an alignment is the fill, whatever it is; a
`0` after an explicit fill belongs to the width.
-/

namespace FormatCheck
namespace Spec

/-- Widths, precisions and indices are below this number. -/
def numberBound : Nat := 2 ^ 64

/-- Takes an alignment with the fill before it, if any. -/
def takeAlign : List Char → (Option Char × Option Align) × List Char
  | fill :: c :: s =>
    -- An alignment in the second place counts first, so that an alignment character can be a fill.
    match Align.ofChar? c with
    | some align => ((some fill, some align), s)
    | none =>
      match Align.ofChar? fill with
      | some align => ((none, some align), c :: s)
      | none => ((none, none), fill :: c :: s)
  | [c] =>
    match Align.ofChar? c with
    | some align => ((none, some align), [])
    | none => ((none, none), [c])
  | [] => ((none, none), [])

/-- Takes the first character if `read` accepts it. -/
def takeOption {α : Type} (read : Char → Option α) : List Char → Option α × List Char
  | [] => (none, [])
  | c :: s =>
    match read c with
    | some a => (some a, s)
    | none => (none, c :: s)

/-- Takes the first character if it is `c`. -/
def takeFlag (c : Char) : List Char → Bool × List Char
  | [] => (false, [])
  | c' :: s => if c' = c then (true, s) else (false, c' :: s)

/-- Takes a run of digits. -/
def takeNumber (s : List Char) : Except FormatError (Option Nat × List Char) :=
  let run := s.takeWhile Char.isDigit
  if run = [] then .ok (none, s)
  else if Numeral.readDecimal run < numberBound then
    .ok (some (Numeral.readDecimal run), s.dropWhile Char.isDigit)
  else .error .widthOverflow

/-- Takes a separator; a second one after it is refused. -/
def takeGrouping (s : List Char) : Except FormatError (Option Grouping × List Char) :=
  match takeOption Grouping.ofChar? s with
  | (none, s) => .ok (none, s)
  | (some grouping, s) =>
    match takeOption Grouping.ofChar? s with
    | (none, s) => .ok (some grouping, s)
    | (some second, _) =>
      if second = grouping then .error (.groupingNotAllowed grouping.toChar grouping.toChar)
      else .error .mixedGrouping

/-- Takes a point and the digits it must have. -/
def takePrecision (s : List Char) : Except FormatError (Option Nat × List Char) :=
  match takeFlag '.' s with
  | (false, s) => .ok (none, s)
  | (true, s) =>
    match takeNumber s with
    | .error e => .error e
    | .ok (none, _) => .error .missingPrecision
    | .ok (some precision, s) => .ok (some precision, s)

/-- Reads a specifier; the name of the object's type only shows in a diagnostic. -/
def parse (typeName : String) (text : String) : Except FormatError Spec := do
  let ((fill, align), s) := takeAlign text.toList
  let (sign, s) := takeOption Sign.ofChar? s
  let (alternate, s) := takeFlag '#' s
  -- After a fill a zero belongs to the width.
  let (zeroPad, s) := if fill.isNone then takeFlag '0' s else (false, s)
  let (width, s) ← takeNumber s
  let (grouping, s) ← takeGrouping s
  let (precision, s) ← takePrecision s
  match s with
  | [] => .ok { fill, align, sign, alternate, zeroPad, width, grouping, precision }
  | [c] => .ok { fill, align, sign, alternate, zeroPad, width, grouping, precision, code := some c }
  | _ => .error (.invalidSpecifier text typeName)

end Spec
end FormatCheck
