import FormatCheck.CaseRecord
import FormatCheck.Json.Printer

/-!
# Log entries

The structured log of a run has one JSON object a line. An entry has a timestamp, a trace id, a
level and an event, and optionally the case it is about, its outcome and free-form details; what is
absent is not written. `Emitter` numbers the entries of one run.
-/

namespace FormatCheck

inductive LogLevel where
  | debug
  | info
  | warn
  | error
  deriving DecidableEq, Repr

namespace LogLevel

def all : List LogLevel := [debug, info, warn, error]

def name : LogLevel → String
  | debug => "debug"
  | info => "info"
  | warn => "warn"
  | error => "error"

def ofName? (name : String) : Option LogLevel := all.find? (·.name = name)

end LogLevel

/-- What became of a case. -/
inductive Outcome where
  | pass
  | fail
  | skip
  | error
  | timeout
  deriving DecidableEq, Repr

namespace Outcome

def all : List Outcome := [pass, fail, skip, error, timeout]

def name : Outcome → String
  | pass => "pass"
  | fail => "fail"
  | skip => "skip"
  | error => "error"
  | timeout => "timeout"

def ofName? (name : String) : Option Outcome := all.find? (·.name = name)

/-- The outcome of a case with the given verdict; a timeout is one whatever the verdict. -/
def ofVerdict (verdict : Verdict) (timedOut : Bool) : Outcome :=
  if timedOut then timeout
  else match verdict with
    | .matched | .bothRejected => pass
    | .mismatch | .unexpectedRendering => fail
    | .subjectError => error
    | .referenceRejected => skip

def level : Outcome → LogLevel
  | pass => .debug
  | skip => .info
  | fail | error | timeout => .error

end Outcome

structure LogEntry where
  timestamp : String
  traceId : String
  level : LogLevel
  event : String
  type : Option SemanticType := none
  format : Option String := none
  value : Option String := none
  outcome : Option Outcome := none
  exitCode : Option Int := none
  durationMs : Option Nat := none
  details : Option Json := none

namespace LogEntry

def withCase (entry : LogEntry) (type : SemanticType) (format value : String) : LogEntry :=
  { entry with type := some type, format := some format, value := some value }

/-! ## JSON -/

def fieldNames : List String :=
  ["timestamp", "trace_id", "level", "event", "semantic_type", "format_spec", "value", "outcome",
    "exit_code", "duration_ms", "details"]

/-- A member that is written only if there is a value. -/
def optionalMember {α : Type} (name : String) (f : α → Json) : Option α → List (String × Json)
  | some a => [(name, f a)]
  | none => []

def toJson (entry : LogEntry) : Json :=
  .object
    ([("timestamp", .string entry.timestamp), ("trace_id", .string entry.traceId),
      ("level", .string entry.level.name), ("event", .string entry.event)]
      ++ optionalMember "semantic_type" (fun t : SemanticType => .string t.tag) entry.type
      ++ optionalMember "format_spec" .string entry.format
      ++ optionalMember "value" .string entry.value
      ++ optionalMember "outcome" (fun o : Outcome => .string o.name) entry.outcome
      ++ optionalMember "exit_code" .int entry.exitCode
      ++ optionalMember "duration_ms" .nat entry.durationMs
      ++ optionalMember "details" id entry.details)

def ofJson? (j : Json) : Option LogEntry := do
  let members ← j.record? fieldNames false
  let text (name : String) : Option String := do (← members.lookup name).string?
  some
    { timestamp := ← text "timestamp"
      traceId := ← text "trace_id"
      level := ← LogLevel.ofName? (← (← members.lookup "level").alternative?)
      event := ← text "event"
      type := ← Json.optional? (fun j => do SemanticType.ofTag? (← j.alternative?))
        (members.lookup "semantic_type")
      format := ← Json.optional? Json.string? (members.lookup "format_spec")
      value := ← Json.optional? Json.string? (members.lookup "value")
      outcome := ← Json.optional? (fun j => do Outcome.ofName? (← j.alternative?))
        (members.lookup "outcome")
      exitCode := ← Json.optional? Json.int32? (members.lookup "exit_code")
      durationMs := ← Json.optional? Json.unsigned? (members.lookup "duration_ms")
      details := ← Json.optional? some (members.lookup "details") }

/-- The line of an entry, without a line break. -/
def line (entry : LogEntry) : String := entry.toJson.compact

end LogEntry

/-! ## Emitter -/

/-- The state of a log: its run and the number of trace ids given out. -/
structure Emitter where
  runId : String
  issued : Nat := 0
  deriving DecidableEq, Repr

namespace Emitter

/-- The trace id with a number: the run and at least six digits. -/
def traceId (runId : String) (number : Nat) : String :=
  runId ++ "::" ++ String.ofList (Numeral.zeroPad 6 (Numeral.decimal number))

/-- Fills in an empty trace id. -/
def emit (emitter : Emitter) (entry : LogEntry) : Emitter × LogEntry :=
  if entry.traceId.isEmpty then
    let number := emitter.issued + 1
    ({ emitter with issued := number }, { entry with traceId := traceId emitter.runId number })
  else (emitter, entry)

def emitAll (emitter : Emitter) (entries : List LogEntry) : List LogEntry :=
  let step (state : Emitter × List LogEntry) (entry : LogEntry) : Emitter × List LogEntry :=
    let (emitter, entry) := state.1.emit entry
    (emitter, entry :: state.2)
  (entries.foldl step (emitter, [])).2.reverse

end Emitter
end FormatCheck
