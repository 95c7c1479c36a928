/-!
# Lines of a text

A text cut at its line feeds. Cutting is undone by joining with line feeds, so different texts have
different pieces.
-/

namespace FormatCheck
namespace Text

/-- The pieces of a text between line feeds; there is one more of them than line feeds. -/
def splitLines : List Char → List (List Char)
  | [] => [[]]
  | c :: s =>
    match splitLines s with
    | [] => [[c]]
    | first :: rest => if c = '\n' then [] :: first :: rest else (c :: first) :: rest

/-- The lines of a text; a line feed at the end starts no further line. -/
def lines (s : List Char) : List (List Char) :=
  let pieces := splitLines s
  if pieces.getLast? = some [] then pieces.dropLast else pieces

end Text
end FormatCheck
