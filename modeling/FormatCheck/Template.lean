import FormatCheck.FormatError

/-!
# Templates

A template is literal text interleaved with replacement fields `{name!conversion:spec}`; a doubled
brace stands for one. `nextSegment` takes one segment off the front of a text, and `scan` repeats it
until the text is used up or a segment is malformed. A malformed segment comes last, so an error in
a later field never hides one in an earlier field.

A literal segment ends at the first brace. A doubled brace gives its one brace to the literal before
it; the literal before a field is a segment of its own, and none is made for empty text.
-/

namespace FormatCheck

structure Field where
  /-- The text before `!` or `:`; empty means automatic numbering. -/
  name : String
  /-- The character after `!`, whatever it is. -/
  conversion : Option Char
  /-- The text after `:` up to the closing brace. -/
  spec : String
  /-- Whether the specifier holds an opening brace. -/
  nested : Bool
  deriving DecidableEq, Repr

inductive Segment where
  | literal (text : String)
  | field (field : Field)
  deriving DecidableEq, Repr

namespace Template

def isBrace (c : Char) : Bool := c = '{' || c = '}'

/-! ## Fields -/

/-- A field name, the character that ended it, and what follows that character. -/
structure NameEnd where
  name : List Char
  stop : Char
  rest : List Char
  deriving DecidableEq, Repr

/-- Takes a field name up to `}`, `:` or `!`. After `[` these and the opening brace are plain until
the next `]`. -/
def takeName (bracketed : Bool) : List Char → Except FormatError NameEnd
  | [] => .error .unterminatedField
  | c :: s =>
    if bracketed then
      (takeName (c != ']') s).map fun e => { e with name := c :: e.name }
    else if c = '{' then .error .unexpectedBraceInName
    else if c = '}' ∨ c = ':' ∨ c = '!' then .ok ⟨[], c, s⟩
    else (takeName (c = '[') s).map fun e => { e with name := c :: e.name }

/-- Takes a specifier up to the closing brace that matches the `depth` braces open. -/
def takeSpec (depth : Nat) : List Char → Except FormatError (List Char × List Char)
  | [] => .error .unmatchedOpenBrace
  | c :: s =>
    if c = '}' ∧ depth ≤ 1 then .ok ([], s)
    else
      let depth := if c = '{' then depth + 1 else if c = '}' then depth - 1 else depth
      (takeSpec depth s).map fun (spec, rest) => (c :: spec, rest)

/-- Takes the specifier of a field and its closing brace. -/
def takeFieldSpec (name : List Char) (conversion : Option Char) (s : List Char) :
    Except FormatError (Field × List Char) :=
  (takeSpec 1 s).map fun (spec, rest) =>
    (⟨String.ofList name, conversion, String.ofList spec, '{' ∈ spec⟩, rest)

/-- Takes what follows the `!` of a field: one character, then the end of the field or a colon and
a specifier. -/
def takeConversion (name : List Char) : List Char → Except FormatError (Field × List Char)
  | [] => .error .missingConversion
  -- The character is taken as it is, a brace or a colon too.
  | c :: '}' :: s => .ok (⟨String.ofList name, some c, "", false⟩, s)
  | c :: ':' :: s => takeFieldSpec name (some c) s
  | [_] => .error .unmatchedOpenBrace
  | _ :: _ :: _ => .error .expectedColonAfterConversion

def takeField (s : List Char) : Except FormatError (Field × List Char) := do
  let e ← takeName false s
  if e.stop = '}' then .ok (⟨String.ofList e.name, none, "", false⟩, e.rest)
  else if e.stop = ':' then takeFieldSpec e.name none e.rest
  else takeConversion e.name e.rest

/-! ## Segments -/

/-- Takes one segment off the front of a non-empty text. -/
def nextSegment (s : List Char) : Except FormatError (Segment × List Char) :=
  let plain := s.takeWhile fun c => !isBrace c
  match s.dropWhile fun c => !isBrace c with
  | [] => .ok (.literal (String.ofList plain), [])
  | '}' :: '}' :: rest => .ok (.literal (String.ofList (plain ++ ['}'])), rest)
  | '{' :: '{' :: rest => .ok (.literal (String.ofList (plain ++ ['{'])), rest)
  | ['{'] => .error (.unbalancedBrace '{')
  | '{' :: rest =>
    -- A brace after text is left for the next segment.
    if plain = [] then (takeField rest).map fun (field, rest) => (.field field, rest)
    else .ok (.literal (String.ofList plain), '{' :: rest)
  | c :: _ => .error (.unbalancedBrace c)

/-- The segments of a text and the defect that ended the scan, if one did. -/
def scanWith : (steps : Nat) → List Char → List Segment × Option FormatError
  | _, [] => ([], none)
  | 0, _ :: _ => ([], none)
  | steps + 1, s =>
    match nextSegment s with
    | .error e => ([], some e)
    | .ok (segment, rest) =>
      let (segments, failure) := scanWith steps rest
      (segment :: segments, failure)

def scan (template : String) : List Segment × Option FormatError :=
  -- Every segment takes at least one character, so these steps suffice.
  scanWith template.length template.toList

/-- A text with every brace doubled, the template that renders as the text. -/
def doubleBraces (s : List Char) : List Char := s.flatMap fun c => if isBrace c then [c, c] else [c]

end Template
end FormatCheck
