import FormatCheck.Spec.Parser

/-!
# Numbering of fields

Field names are positions: an empty name takes the next position, a name of digits is a position
itself, and one template cannot use both. The first such name decides which, for good; a name that
is refused decides nothing and takes no position, except that a number too great to read still
settles the numbering as manual.
-/

namespace FormatCheck

inductive Numbering where
  | undecided
  | automatic (next : Nat)
  | manual
  deriving DecidableEq, Repr

namespace Numbering

/-- The position that a field name stands for, and the numbering after it. -/
def resolve (numbering : Numbering) (name : String) : Except FormatError Nat × Numbering :=
  let cs := name.toList
  if cs = [] then
    match numbering with
    | undecided => (.ok 0, automatic 1)
    | automatic next => (.ok next, automatic (next + 1))
    | manual => (.error .manualToAutoNumbering, manual)
  else if cs.all Char.isDigit then
    match numbering with
    | automatic next => (.error .autoToManualNumbering, automatic next)
    | undecided | manual =>
      let index := Numeral.readDecimal cs
      (if index < Spec.numberBound then .ok index else .error .widthOverflow, manual)
  else (.error (.namedField name), numbering)

end Numbering
end FormatCheck
