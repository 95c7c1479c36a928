import FormatCheck.Numeral
import FormatCheck.Text.Quoted
import FormatCheck.Value

/-!
# Rejections of the engine

The reasons for which a template or a specifier is refused, and the wording of each.
-/

namespace FormatCheck

inductive FormatError where
  /-- A brace that is neither doubled nor part of a field. -/
  | unbalancedBrace (brace : Char)
  | unterminatedField
  | unexpectedBraceInName
  | unmatchedOpenBrace
  | unknownConversion (conversion : Char)
  | missingConversion
  | expectedColonAfterConversion
  | autoToManualNumbering
  | manualToAutoNumbering
  | indexOutOfRange (index : Nat)
  /-- A field name that is no positional index. -/
  | namedField (name : String)
  /-- A specifier that itself holds a field. -/
  | nestedField (spec : String)
  /-- A specifier with more text than its grammar takes, for an object of the named type. -/
  | invalidSpecifier (spec : String) (typeName : String)
  | missingPrecision
  /-- A width, precision or index past the greatest 64-bit number. -/
  | widthOverflow
  | mixedGrouping
  | groupingNotAllowed (separator : Char) (code : Char)
  | unknownCode (code : Char) (kind : ValueKind)
  | precisionOnInteger
  | signWithChar
  | alternateWithChar
  | charOutOfRange
  | signOnString
  | spaceOnString
  | alternateOnString
  | equalsAlignOnString
  deriving DecidableEq, Repr

namespace FormatError

def message : FormatError → String
  | unbalancedBrace brace => "Single '" ++ brace.toString ++ "' encountered in format string"
  | unterminatedField => "expected '\x7d' before end of string"
  | unexpectedBraceInName => "unexpected '\x7b' in field name"
  | unmatchedOpenBrace => "unmatched '\x7b' in format spec"
  | unknownConversion conversion => "Unknown conversion specifier " ++ conversion.toString
  | missingConversion => "end of string while looking for conversion specifier"
  | expectedColonAfterConversion => "expected ':' after conversion specifier"
  | autoToManualNumbering =>
    "cannot switch from automatic field numbering to manual field specification"
  | manualToAutoNumbering =>
    "cannot switch from manual field specification to automatic field numbering"
  | indexOutOfRange index =>
    "Replacement index " ++ Numeral.showNat index ++ " out of range for positional args tuple"
  | namedField name => "field name " ++ Text.inDoubleQuotes name ++ " is not a positional index"
  | nestedField spec =>
    "nested replacement fields are not supported: " ++ Text.inDoubleQuotes spec
  | invalidSpecifier spec typeName =>
    "Invalid format specifier '" ++ spec ++ "' for object of type '" ++ typeName ++ "'"
  | missingPrecision => "Format specifier missing precision"
  | widthOverflow => "Too many decimal digits in format string"
  | mixedGrouping => "Cannot specify both ',' and '_'."
  | groupingNotAllowed separator code =>
    "Cannot specify '" ++ separator.toString ++ "' with '" ++ code.toString ++ "'."
  | unknownCode code kind =>
    "Unknown format code '" ++ code.toString ++ "' for object of type '" ++ kind.name ++ "'"
  | precisionOnInteger => "Precision not allowed in integer format specifier"
  | signWithChar => "Sign not allowed with integer format specifier 'c'"
  | alternateWithChar => "Alternate form (#) not allowed with integer format specifier 'c'"
  | charOutOfRange => "%c arg not in range(0x110000)"
  | signOnString => "Sign not allowed in string format specifier"
  | spaceOnString => "Space not allowed in string format specifier"
  | alternateOnString => "Alternate form (#) not allowed in string format specifier"
  | equalsAlignOnString => "'=' alignment not allowed in string format specifier"

end FormatError
end FormatCheck
