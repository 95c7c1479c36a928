import FormatCheck.Literal
import FormatCheck.Render

/-!
# Expected renderings

What a subject is expected to print for a value under a format: the engine's rendering, with the
quotes of a represented string turned into the double quotes that subjects use. Whether a format
represents its value is read off its text, by the pattern of a field with an `r` conversion.
-/

namespace FormatCheck

/-- Whether `!r` and later a closing brace follow, after any digits. -/
def startsReprField (s : List Char) : Bool :=
  match s.dropWhile Char.isDigit with
  | '!' :: 'r' :: rest => '}' ∈ rest
  | _ => false

/-- Whether a text holds an opening brace, digits, `!r` and later a closing brace. -/
def hasReprField : List Char → Bool
  | [] => false
  | c :: s => (c = '{' && startsReprField s) || hasReprField s

/-- Every single quote turned into a double one. -/
def normalizeQuotes (s : String) : String :=
  String.ofList (s.toList.map fun c => if c = '\'' then '"' else c)

/-- The rendering that a subject should print, or the engine's rejection. -/
def expectedRendering (format : String) (v : Value) : Except FormatError String := do
  let rendered ← Render.renderOne format v
  if v.kind = .str ∧ hasReprField format.toList then .ok (normalizeQuotes rendered)
  else .ok rendered

/-- What one case asks of a subject. -/
structure CanonicalCase where
  expected : Except FormatError String
  literal : Bytes

/-- The expectation and the literal of a case; only a value without a literal has none. -/
def canonicalize (type : SemanticType) (v : Value) (format : String) :
    Except LiteralError CanonicalCase := do
  let literal ← Literal.encode type v
  .ok ⟨expectedRendering format v, literal⟩

end FormatCheck
