import FormatCheck.Json.Reader
import FormatCheck.Log
import FormatCheck.Text.Lines

/-!
# Validation of logs

A log line must be a JSON object with the required members, known names of level and outcome, the
three members of a case together or not at all, and a trace id of the form `run::number`. All
defects of these kinds are reported; a line without any must still be readable as an entry.
-/

namespace FormatCheck

inductive LogDefect where
  | invalidJson
  | notAnObject
  | missing (field : String)
  | invalidLevel (name : String)
  | invalidOutcome (name : String)
  /-- Some but not all members of a case are there. -/
  | incompleteCase
  | malformedTraceId (traceId : String)
  /-- A member has a value that an entry cannot have. -/
  | unreadable
  deriving DecidableEq, Repr

namespace LogDefect

/-- The member that a defect is reported at. -/
def field : LogDefect → String
  | invalidJson => "<json>"
  | notAnObject => "<root>"
  | missing field => field
  | invalidLevel _ => "level"
  | invalidOutcome _ => "outcome"
  | incompleteCase => "semantic_type"
  | malformedTraceId _ => "trace_id"
  | unreadable => "<deserialization>"

/-- The text of a defect. `explanation` is what the reader of JSON says about a text or a value that
it does not take. -/
def message (explanation : String) : LogDefect → String
  | invalidJson => "invalid JSON: " ++ explanation
  | notAnObject => "expected JSON object"
  | missing _ => "required field missing"
  | invalidLevel name => "invalid level: '" ++ name ++ "'"
  | invalidOutcome name => "invalid outcome: '" ++ name ++ "'"
  | incompleteCase => "semantic_type, format_spec and value must appear together"
  | malformedTraceId traceId =>
    "trace_id should follow <run_id>::<seq> format, got: '" ++ traceId ++ "'"
  | unreadable => "failed to deserialize: " ++ explanation

end LogDefect

/-- A defect and the number of its line. -/
structure LogIssue where
  line : Nat
  defect : LogDefect
  deriving DecidableEq, Repr

def LogIssue.text (explanation : String) (issue : LogIssue) : String :=
  "line " ++ Numeral.showNat issue.line ++ ": field '" ++ issue.defect.field ++ "': "
    ++ issue.defect.message explanation

namespace Log

/-! ## Lines -/

def requiredFields : List String := ["timestamp", "trace_id", "level", "event"]
def caseFields : List String := ["semantic_type", "format_spec", "value"]

/-! The names that the schema knows, apart from those that an entry is read with. -/

def levelNames : List String := ["debug", "info", "warn", "error"]
def outcomeNames : List String := ["pass", "fail", "skip", "error", "timeout"]

/-- Whether a text holds two colons in a row. -/
def hasDoubleColon : List Char → Bool
  | ':' :: ':' :: _ => true
  | _ :: s => hasDoubleColon s
  | [] => false

/-- The text of a member, if it is a text and fails a test. -/
def failingText (members : List (String × Json)) (name : String) (ok : String → Bool) :
    Option String :=
  match members.lookup name with
  | some (.string s) => if ok s then none else some s
  | _ => none

def memberDefects (members : List (String × Json)) : List LogDefect :=
  let present (name : String) : Bool := (members.lookup name).isSome
  let caseCount := caseFields.countP present
  (requiredFields.filter fun name => !present name).map .missing
    ++ ((failingText members "level" fun s => levelNames.contains s).map
      LogDefect.invalidLevel).toList
    ++ ((failingText members "outcome" fun s => outcomeNames.contains s).map
      LogDefect.invalidOutcome).toList
    ++ (if caseCount = 0 ∨ caseCount = 3 then [] else [.incompleteCase])
    ++ ((failingText members "trace_id" fun s => hasDoubleColon s.toList).map
      LogDefect.malformedTraceId).toList

/-- Reads a log line as an entry. -/
def validateLine (line : String) : Except (List LogDefect) LogEntry :=
  match Json.read? line with
  | none => .error [.invalidJson]
  | some (.object members) =>
    let defects := memberDefects members
    if defects ≠ [] then .error defects
    else match LogEntry.ofJson? (.object members) with
      | some entry => .ok entry
      | none => .error [.unreadable]
  | some _ => .error [.notAnObject]

/-! ## Files -/

/-- The result of validating a file: its number of lines that are not blank, and the issues. -/
structure FileReport where
  count : Nat
  issues : List LogIssue
  deriving DecidableEq, Repr

def lineIssues (number : Nat) (line : List Char) : List LogIssue :=
  match validateLine (String.ofList line) with
  | .ok _ => []
  | .error defects => defects.map fun defect => ⟨number, defect⟩

/-- Validates lines of which the first has the given number; blank ones are passed over. -/
def validateLines (number : Nat) : List (List Char) → FileReport
  | [] => ⟨0, []⟩
  | line :: rest =>
    let report := validateLines (number + 1) rest
    let content := Text.trim line
    if content = [] then report
    else ⟨report.count + 1, lineIssues number content ++ report.issues⟩

def validateFile (content : String) : FileReport := validateLines 1 (Text.lines content.toList)

end Log
end FormatCheck
