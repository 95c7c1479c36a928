import FormatCheck.FormatError
import FormatCheck.Json
import FormatCheck.SemanticType
import FormatCheck.Subject

/-!
# Records of cases

The verdict on one case, which compares what the engine expects with what the subject did, and the
record that keeps it with the texts compared. A record shows itself as one line of the transcript.
-/

namespace FormatCheck

inductive Verdict where
  /-- The subject printed what the engine expects. -/
  | matched
  /-- The subject printed something else. -/
  | mismatch
  /-- The subject failed, was killed or could not be started. -/
  | subjectError
  /-- The engine rejects the case, which was not sent. -/
  | referenceRejected
  /-- The engine and the subject both reject the case. -/
  | bothRejected
  /-- The engine rejects the case but the subject rendered it. -/
  | unexpectedRendering
  deriving DecidableEq, Repr

namespace Verdict

def all : List Verdict :=
  [matched, mismatch, subjectError, referenceRejected, bothRejected, unexpectedRendering]

def name : Verdict → String
  | matched => "match"
  | mismatch => "mismatch"
  | subjectError => "subject_error"
  | referenceRejected => "reference_rejected"
  | bothRejected => "both_rejected"
  | unexpectedRendering => "unexpected_rendering"

def ofName? (name : String) : Option Verdict := all.find? (·.name = name)

def ofJson? (j : Json) : Option Verdict := do ofName? (← j.alternative?)

def passed : Verdict → Bool
  | matched | bothRejected => true
  | _ => false

def skipped : Verdict → Bool
  | referenceRejected => true
  | _ => false

def failed (v : Verdict) : Bool := !v.passed && !v.skipped

end Verdict

structure CaseRecord where
  type : SemanticType
  format : String
  /-- The representation of the value. -/
  value : String
  verdict : Verdict
  expected : String
  /-- What the subject printed, or its diagnostics if it failed. -/
  actual : String
  exitCode : Option Int
  deriving DecidableEq, Repr

namespace CaseRecord

/-- The expected rendering, or the wording of the rejection. -/
def expectedText : Except FormatError String → String
  | .ok text => text
  | .error e => e.message

/-- The verdict on a case that was sent. -/
def judge (expected : Except FormatError String) (output : SubjectOutput) : Verdict :=
  match expected, output.success with
  | .ok text, true => if text = output.stdout then .matched else .mismatch
  | .ok _, false => .subjectError
  | .error _, false => .bothRejected
  | .error _, true => .unexpectedRendering

/-- The record of a case that was sent. -/
def ofOutput (type : SemanticType) (format : String) (v : Value)
    (expected : Except FormatError String) (output : SubjectOutput) : CaseRecord :=
  { type, format, value := v.repr
    verdict := judge expected output
    expected := expectedText expected
    actual := if output.success then output.stdout else output.diagnostics
    exitCode := output.exitCode? }

/-- The record of a case that the engine rejects and that was not sent. -/
def rejected (type : SemanticType) (format : String) (v : Value) (e : FormatError) : CaseRecord :=
  { type, format, value := v.repr
    verdict := .referenceRejected
    expected := e.message
    actual := ""
    exitCode := none }

def unreachable (type : SemanticType) (format : String) (v : Value)
    (expected : Except FormatError String) (reason : String) : CaseRecord :=
  { type, format, value := v.repr
    verdict := .subjectError
    expected := expectedText expected
    actual := reason
    exitCode := none }

/-! ## Transcript -/

/-- The call that a transcript line is about. -/
def callText (r : CaseRecord) : String :=
  r.type.tag ++ " " ++ Text.quote false r.format ++ ".format(" ++ r.value ++ ")"

/-- The transcript line of a record, without a line break. -/
def line (r : CaseRecord) : String :=
  match r.verdict with
  | .matched => "[  OK  ] " ++ r.callText ++ ": " ++ r.expected ++ " == " ++ r.actual
  | .mismatch => "[ FAIL ] " ++ r.callText ++ ": " ++ r.expected ++ " != " ++ r.actual
  | .subjectError => "[ FAIL ] " ++ r.callText ++ ": " ++ r.actual
  | .referenceRejected => "[ SKIP ] " ++ r.callText ++ ": reference rejected: " ++ r.expected
  | .bothRejected => "[  OK  ] " ++ r.callText ++ ": rejected: " ++ r.expected
  | .unexpectedRendering =>
    "[ FAIL ] " ++ r.callText ++ ": rejected: " ++ r.expected ++ " != " ++ r.actual

/-! ## JSON -/

/-- The members of a record, in the order of its array form. -/
def fieldNames : List String :=
  ["semantic_type", "format", "value", "result", "expected", "actual", "exit_code"]

def ofJson? (j : Json) : Option CaseRecord := do
  let members ← j.record? fieldNames false
  let text (name : String) : Option String := do (← members.lookup name).string?
  some
    { type := ← SemanticType.ofTag? (← (← members.lookup "semantic_type").alternative?)
      format := ← text "format"
      value := ← text "value"
      verdict := ← Verdict.ofJson? (← members.lookup "result")
      expected := ← text "expected"
      actual := ← text "actual"
      exitCode := ← Json.optional? Json.int32? (members.lookup "exit_code") }

def toJson (r : CaseRecord) : Json :=
  .object
    ([("semantic_type", .string r.type.tag), ("format", .string r.format),
      ("value", .string r.value), ("result", .string r.verdict.name),
      ("expected", .string r.expected), ("actual", .string r.actual)]
      ++ (r.exitCode.map fun code => ("exit_code", Json.int code)).toList)

end CaseRecord
end FormatCheck
