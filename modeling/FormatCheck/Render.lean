import FormatCheck.Render.Integer
import FormatCheck.Render.Text
import FormatCheck.Template.Numbering
import FormatCheck.Template

/-!
# Rendering templates

`formatValue` renders one value under one specifier. `render` renders a template against positional
arguments: segments are taken from left to right, and the first thing that fails, in a segment or in
the scan after it, is the outcome.
-/

namespace FormatCheck
namespace Render

/-- Renders a value under a parsed specifier. -/
def formatWith (v : Value) (spec : Spec) : Except FormatError (List Char) :=
  match v with
  | .bool b => formatInteger b.toInt spec .bool
  | .int i => formatInteger i.toInt spec .int
  | .uint n => formatInteger n.toNat spec .int
  | .float x => formatFloat x spec
  | .str s => formatText s.toList spec

/-- Renders a value under the text of a specifier; the empty one is the plain text of the value. -/
def formatValue (v : Value) (spec : String) : Except FormatError String :=
  if spec.isEmpty then .ok v.toText
  else do
    let parsed ← Spec.parse v.kind.name spec
    let text ← formatWith v parsed
    .ok (String.ofList text)

/-- The string that a conversion makes of a value. -/
def convert (v : Value) (conversion : Char) : Except FormatError Value :=
  if conversion = 'r' then .ok (.str v.repr)
  else if conversion = 's' then .ok (.str v.toText)
  else if conversion = 'a' then .ok (.str v.ascii)
  else .error (.unknownConversion conversion)

/-- The value of a field after its conversion, if it has one. -/
def convertField (v : Value) (field : Field) : Except FormatError Value :=
  match field.conversion with
  | none => .ok v
  | some c => convert v c

/-- Renders a field whose argument is known. -/
def renderField (field : Field) (v : Value) : Except FormatError String := do
  -- A conversion that fails hides a nested field.
  let v ← convertField v field
  if field.nested then .error (.nestedField field.spec)
  else formatValue v field.spec

def argument (args : List Value) (index : Nat) : Except FormatError Value :=
  match args[index]? with
  | some v => .ok v
  | none => .error (.indexOutOfRange index)

/-- Renders the segments that a scan yielded, then reports the defect that ended it. -/
def renderSegments (args : List Value) (failure : Option FormatError) (numbering : Numbering) :
    List Segment → Except FormatError String
  | [] => match failure with
    | some e => .error e
    | none => .ok ""
  | .literal text :: segments => do
    let rest ← renderSegments args failure numbering segments
    .ok (text ++ rest)
  | .field field :: segments =>
    match numbering.resolve field.name with
    | (.error e, _) => .error e
    | (.ok index, numbering) => do
      let v ← argument args index
      let text ← renderField field v
      let rest ← renderSegments args failure numbering segments
      .ok (text ++ rest)

/-- Renders a template against positional arguments. -/
def render (template : String) (args : List Value) : Except FormatError String :=
  let (segments, failure) := Template.scan template
  renderSegments args failure .undecided segments

def renderOne (template : String) (v : Value) : Except FormatError String := render template [v]

end Render
end FormatCheck
