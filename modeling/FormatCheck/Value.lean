import FormatCheck.Decimal.Layout
import FormatCheck.Text.Quoted

/-!
# Values

The values that templates are rendered with. Signed and unsigned integers are different variants;
all floats are carried in double precision, a single-precision value widened.

A value has two texts: `repr`, its representation, and `toText`, which differs from it only for
strings, whose text is the string itself.
-/

namespace FormatCheck

inductive Value where
  | bool (b : Bool)
  | int (v : Int64)
  | uint (v : UInt64)
  | float (x : Binary64)
  | str (s : String)
  deriving DecidableEq

/-- What a diagnostic calls the object that was formatted. -/
inductive ValueKind where
  | bool
  | int
  | float
  | str
  deriving DecidableEq, Repr

def ValueKind.name : ValueKind → String
  | bool => "bool"
  | int => "int"
  | float => "float"
  | str => "str"

/-- The representation of a float: its shortest digits, or `inf` or `nan`. The sign of not-a-number
is not shown. -/
def Binary.repr {F : Format} (x : Binary F) : List Char :=
  match x.magnitude with
  | .nan => "nan".toList
  | .infinite => if x.negative then "-inf".toList else "inf".toList
  | .finite k =>
    if x.negative then '-' :: Decimal.shortestText k else Decimal.shortestText k

namespace Value

def kind : Value → ValueKind
  | bool _ => .bool
  | int _ | uint _ => .int
  | float _ => .float
  | str _ => .str

/-- The integer that an integral value stands for; a boolean counts as `0` or `1`. -/
def integer? : Value → Option Int
  | bool b => some b.toInt
  | int v => some v.toInt
  | uint v => some v.toNat
  | float _ | str _ => none

/-- The representation of a value, strings quoted; with `asciiOnly` in ASCII throughout. -/
def reprWith (asciiOnly : Bool) : Value → String
  | bool true => "True"
  | bool false => "False"
  | int v => Numeral.showInt v.toInt
  | uint v => Numeral.showNat v.toNat
  | float x => String.ofList x.repr
  | str s => Text.quote asciiOnly s

def repr (v : Value) : String := v.reprWith false

/-- The representation in ASCII alone. -/
def ascii (v : Value) : String := v.reprWith true

def toText : Value → String
  | str s => s
  | v => v.repr

end Value
end FormatCheck
