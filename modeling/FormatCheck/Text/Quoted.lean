import FormatCheck.Numeral
import FormatCheck.Text.CharClass

/-!
# Quoted texts

Two quotations. `quote` is the representation of a string value: single quotes unless the text
holds a single quote and no double quote, short escapes for the backslash, the delimiter, tab, line
feed and carriage return, and numeric escapes of two, four or eight hexadecimal digits for what is
not printable. `inDoubleQuotes` is the form diagnostics show a text in, with braced escapes.
-/

namespace FormatCheck
namespace Text

/-- A code point in at least `width` lower-case hexadecimal digits. -/
def hexText (width : Nat) (n : Nat) : List Char := Numeral.zeroPad width (Numeral.text 16 n)

/-! ## The representation of a string -/

/-- The delimiter of a quotation: double only where that spares an escape. -/
def delimiter (s : List Char) : Char :=
  if '\'' ∈ s ∧ '"' ∉ s then '"' else '\''

/-- The shortest numeric escape that holds the code point. -/
def numericEscape (c : Char) : List Char :=
  let code := c.toNat
  if code ≤ 0xff then '\\' :: 'x' :: hexText 2 code
  else if code ≤ 0xffff then '\\' :: 'u' :: hexText 4 code
  else '\\' :: 'U' :: hexText 8 code

/-- A character between the delimiters of a quotation. -/
def quoteChar (delim : Char) (asciiOnly : Bool) (c : Char) : List Char :=
  if c = '\\' then ['\\', '\\']
  else if c = '\t' then ['\\', 't']
  else if c = '\n' then ['\\', 'n']
  else if c = '\r' then ['\\', 'r']
  else if c = delim then ['\\', c]
  else if isGraphicAscii c || (!asciiOnly && isPrintable c) then [c]
  else numericEscape c

/-- The quotation of a text; with `asciiOnly` every character beyond ASCII is escaped. -/
def quoteChars (asciiOnly : Bool) (s : List Char) : List Char :=
  let delim := delimiter s
  delim :: (s.flatMap (quoteChar delim asciiOnly) ++ [delim])

def quote (asciiOnly : Bool) (s : String) : String := String.ofList (quoteChars asciiOnly s.toList)

/-! ## Diagnostics -/

/-- A character in a diagnostic. One that extends the character before it is escaped. One that is not
assigned is shown, as the assigned ones depend on the version of the database. -/
def diagnosticChar (c : Char) : List Char :=
  if c = '"' ∨ c = '\\' then ['\\', c]
  else if c = '\t' then ['\\', 't']
  else if c = '\n' then ['\\', 'n']
  else if c = '\r' then ['\\', 'r']
  else if c.toNat = 0 then ['\\', '0']
  else if isGraphicAscii c || (isPrintable c && !isGraphemeExtend c) then [c]
  else '\\' :: 'u' :: '{' :: (Numeral.text 16 c.toNat ++ ['}'])

/-- A text as a diagnostic shows it, in double quotes. -/
def inDoubleQuotes (s : String) : String :=
  String.ofList ('"' :: (s.toList.flatMap diagnosticChar ++ ['"']))

end Text
end FormatCheck
