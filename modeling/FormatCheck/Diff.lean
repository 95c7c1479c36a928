import FormatCheck.Text.Lines
import FormatCheck.Text.Quoted

/-!
# Differences of renderings

Renderings are usually one line, so a difference is first given as the place of the first character
that differs, then line by line, with the characters that would not show made visible.
-/

namespace FormatCheck
namespace Diff

/-! ## Visible characters -/

/-- A character of a line, with tabs, carriage returns and controls written as escapes. -/
def visibleChar (c : Char) : List Char :=
  if c = '\t' then ['\\', 't']
  else if c = '\r' then ['\\', 'r']
  else if Text.isControl c then '\\' :: 'x' :: Text.hexText 2 c.toNat
  else [c]

def visible (line : List Char) : List Char := line.flatMap visibleChar

/-! ## Differences -/

/-- The length of the longest common beginning of two texts. -/
def commonLength : List Char → List Char → Nat
  | a :: s, b :: t => if a = b then commonLength s t + 1 else 0
  | _, _ => 0

/-- The place of the first difference of two texts, none if they are equal. -/
def firstDifference (expected actual : String) : Option Nat :=
  if expected = actual then none else some (commonLength expected.toList actual.toList)

/-- The hunk of a line that differs: the expected line, if there is one, then the actual one. -/
def hunk (number : Nat) (expected actual : Option (List Char)) : List Char :=
  "@@ line ".toList ++ Numeral.decimal number ++ " @@\n".toList
    ++ (expected.map fun line => '-' :: (visible line ++ ['\n'])).getD []
    ++ (actual.map fun line => '+' :: (visible line ++ ['\n'])).getD []

/-- The hunks of two lists of lines, the first of them with the given number. -/
def hunks (number : Nat) : List (List Char) → List (List Char) → List Char
  | [], [] => []
  | e :: es, [] => hunk number (some e) none ++ hunks (number + 1) es []
  | [], a :: as => hunk number none (some a) ++ hunks (number + 1) [] as
  | e :: es, a :: as =>
    (if e = a then [] else hunk number (some e) (some a)) ++ hunks (number + 1) es as

def render (expected actual : String) : String :=
  match firstDifference expected actual with
  | none => "[identical]"
  | some offset =>
    "--- expected\n+++ actual\n@@ char " ++ Numeral.showNat offset ++ " @@\n"
      ++ String.ofList (hunks 1 (Text.splitLines expected.toList) (Text.splitLines actual.toList))

end Diff
end FormatCheck
