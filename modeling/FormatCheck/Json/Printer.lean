import FormatCheck.Json
import FormatCheck.Decimal.Layout
import FormatCheck.Text.Quoted

/-!
# Writing JSON

Two forms: compact, without any blank, and indented by two blanks a level, where an empty list or
object stays on one line. In strings the quote, the backslash and the characters below the space are
escaped, all else is written as it is. A float is written in its shortest digits, positionally from
`10 ^ (-5)` up to below `10 ^ 16`, always with a point or an exponent. An exponent has its sign, also
when it is positive.
-/

namespace FormatCheck
namespace Json

/-! ## Scalars -/

def escapeChar (c : Char) : List Char :=
  if c = '"' ∨ c = '\\' then ['\\', c]
  else if c = '\n' then ['\\', 'n']
  else if c = '\r' then ['\\', 'r']
  else if c = '\t' then ['\\', 't']
  else if c.toNat = 8 then ['\\', 'b']
  else if c.toNat = 12 then ['\\', 'f']
  else if c.toNat < 0x20 then '\\' :: 'u' :: Text.hexText 4 c.toNat
  else [c]

def stringText (s : String) : List Char := '"' :: (s.toList.flatMap escapeChar ++ ['"'])

/-- The exponent of a float, with its sign and no zero before its digits. -/
def exponentText (e : Int) : List Char :=
  'e' :: (if e < 0 then '-' else '+') :: Numeral.decimal e.natAbs

/-- The digits of a number with point and exponent where JSON writing puts them. -/
def floatDigits (x : Decimal) : List Char :=
  if -5 < x.point ∧ x.point ≤ 16 then
    let shown := (x.point + 1).toNat
    Decimal.setPoint (Decimal.extend shown x.digits) x.point
  else
    let mantissa := Decimal.dropFinalPoint false (Decimal.setPoint x.digits 1)
    mantissa ++ exponentText (x.point - 1)

/-- A JSON float; infinities and not-a-number, which JSON has no text for, are `null`. -/
def floatText (x : Binary64) : List Char :=
  match x.magnitude with
  | .finite k =>
    let digits := floatDigits (Decimal.shortest .even k)
    if x.negative then '-' :: digits else digits
  | _ => "null".toList

def numberText : JsonNumber → List Char
  | .integer z => Numeral.signedDecimal z
  | .float x => floatText x

/-! ## Compact form -/

mutual

def compactText : Json → List Char
  | null => "null".toList
  | bool true => "true".toList
  | bool false => "false".toList
  | number n => numberText n
  | string s => stringText s
  | array items => '[' :: (compactItems items ++ [']'])
  | object members => '{' :: (compactMembers members ++ ['}'])

def compactItems : List Json → List Char
  | [] => []
  | [j] => compactText j
  | j :: items => compactText j ++ ',' :: compactItems items

def compactMembers : List (String × Json) → List Char
  | [] => []
  | [(k, j)] => stringText k ++ ':' :: compactText j
  | (k, j) :: members => stringText k ++ ':' :: (compactText j ++ ',' :: compactMembers members)

end

/-- A value on one line. -/
def compact (j : Json) : String := String.ofList (compactText j)

/-! ## Indented form -/

/-- A line break and the indentation of a level. -/
def newLine (level : Nat) : List Char := '\n' :: List.replicate (2 * level) ' '

mutual

/-- A value whose nested parts stand on lines of their own, one level deeper. -/
def indentedText (level : Nat) : Json → List Char
  | array [] => ['[', ']']
  | array items => '[' :: (indentedItems (level + 1) items ++ newLine level ++ [']'])
  | object [] => ['{', '}']
  | object members => '{' :: (indentedMembers (level + 1) members ++ newLine level ++ ['}'])
  | null => "null".toList
  | bool true => "true".toList
  | bool false => "false".toList
  | number n => numberText n
  | string s => stringText s

def indentedItems (level : Nat) : List Json → List Char
  | [] => []
  | [j] => newLine level ++ indentedText level j
  | j :: items => newLine level ++ indentedText level j ++ ',' :: indentedItems level items

def indentedMembers (level : Nat) : List (String × Json) → List Char
  | [] => []
  | [(k, j)] => newLine level ++ stringText k ++ ':' :: ' ' :: indentedText level j
  | (k, j) :: members =>
    newLine level ++ stringText k ++ ':' :: ' ' ::
      (indentedText level j ++ ',' :: indentedMembers level members)

end

/-- A value on several lines. -/
def indented (j : Json) : String := String.ofList (indentedText 0 j)

end Json
end FormatCheck
