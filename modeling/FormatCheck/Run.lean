import FormatCheck.Config
import FormatCheck.Expectation
import FormatCheck.Log
import FormatCheck.Plan
import FormatCheck.Summary

/-!
# Runs

A run takes a plan group by group, in each group format by format, and meets every value with every
format. A case that the engine rejects is recorded without asking the subject, unless the
configuration sends such cases too. A run stops early at a value that has no literal, and at its
first failure if it is configured to.

`Run.ofPlan` gives the steps of a run in order; the transcript, the summary and the log are read off
the steps, so they cannot disagree about what was executed.
-/

namespace FormatCheck

structure CaseRun where
  record : CaseRecord
  /-- How long the subject took, if it was asked, in milliseconds. -/
  milliseconds : Option Nat := none
  timedOut : Bool := false
  deriving DecidableEq

namespace CaseRun

def ofAnswer (type : SemanticType) (format : String) (v : Value)
    (expected : Except FormatError String) : Except InvocationError SubjectOutput → CaseRun
  | .ok output =>
    { record := .ofOutput type format v expected output
      milliseconds := some output.milliseconds
      timedOut := output.status = .timedOut }
  | .error e => { record := .unreachable type format v expected e.message }

/-- Executes one case; only a value without a literal cannot be. -/
def execute (subject : Subject) (config : Config) (type : SemanticType) (v : Value)
    (format : String) : Except LiteralError CaseRun := do
  let case ← canonicalize type v format
  -- Even a case that is not sent needs its literal, so a value without one is an error first.
  match case.expected, config.dispatchRejected with
  | .error e, false => .ok { record := .rejected type format v e }
  | expected, _ => .ok (ofAnswer type format v expected (subject format type.tag case.literal))

def outcome (run : CaseRun) : Outcome := .ofVerdict run.record.verdict run.timedOut

end CaseRun

/-- What a run does one after the other. -/
inductive Step where
  | enter (type : SemanticType)
  | case (run : CaseRun)
  | leave
  deriving DecidableEq

/-- Why a run ends before the end of its plan. -/
inductive Stop where
  /-- A case failed, and the run was to end then. -/
  | failure
  /-- A value has no literal. -/
  | literal (e : LiteralError)
  deriving DecidableEq

/-! ## Execution -/

/-- A run so far, its latest step first. -/
structure Progress where
  latestFirst : List Step := []
  stop : Option Stop := none

namespace Progress

/-- Takes a step, unless the run has stopped. -/
def add (progress : Progress) (step : Step) : Progress :=
  if progress.stop.isSome then progress
  else { progress with latestFirst := step :: progress.latestFirst }

/-- Executes a case, unless the run has stopped. -/
def execute (subject : Subject) (config : Config) (type : SemanticType) (format : String)
    (progress : Progress) (v : Value) : Progress :=
  if progress.stop.isSome then progress
  else match CaseRun.execute subject config type v format with
    | .error e => { progress with stop := some (.literal e) }
    | .ok run =>
      { latestFirst := .case run :: progress.latestFirst
        stop := if run.record.verdict.failed && config.abortOnFirstFailure then some .failure
          else none }

/-- Executes a group, its formats in the outer loop. -/
def executeGroup (subject : Subject) (config : Config) (progress : Progress) (group : TestGroup) :
    Progress :=
  -- A group without cases is entered and left like any other.
  let entered := progress.add (.enter group.type)
  let done := group.formats.foldl
    (fun progress format =>
      group.values.foldl (execute subject config group.type format) progress) entered
  done.add .leave

end Progress

/-- The steps of a run in order, and why it stopped if it did. -/
structure Run where
  steps : List Step
  stop : Option Stop
  deriving DecidableEq

namespace Run

/-- Runs a plan against a subject. -/
def ofPlan (subject : Subject) (config : Config) (plan : TestPlan) : Run :=
  let progress := plan.groups.foldl (Progress.executeGroup subject config) {}
  ⟨progress.latestFirst.reverse, progress.stop⟩

def cases (run : Run) : List CaseRun :=
  run.steps.filterMap fun step => match step with
    | .case case => some case
    | .enter _ | .leave => none

/-- Why a run could not go on, other than by its configuration. -/
def error? (run : Run) : Option LiteralError :=
  match run.stop with
  | some (.literal e) => some e
  | some .failure | none => none

/-! ## Transcript -/

/-- What a step adds to the transcript: a line for a case, an empty line after a group. -/
def stepText : Step → String
  | .enter _ => ""
  | .case case => case.record.line ++ "\n"
  | .leave => "\n"

def transcript (run : Run) : String := String.join (run.steps.map stepText)

/-! ## Summary -/

/-- Counts a step. -/
def countStep (summary : Summary) : Step → Summary
  | .enter type => summary.touch type
  | .case case => summary.record case.record
  | .leave => summary

def summary (run : Run) : Summary :=
  { run.steps.foldl countStep {} with aborted := run.stop = some .failure }

/-! ## Log -/

/-- The entry at the start, with what is to be run. -/
def startEntry (timestamp subjectName : String) (plan : TestPlan) : LogEntry :=
  { timestamp, traceId := "", level := .info, event := "run_start"
    details := some (.object
      [("fingerprint", .string plan.fingerprint), ("subject", .string subjectName),
        ("total_cases", .nat plan.totalCases)]) }

/-- The most milliseconds that an entry can hold. -/
def greatestDuration : Nat := 2 ^ 64 - 1

/-- The entry of a case, with its texts unless it passed. -/
def caseEntry (timestamp : String) (case : CaseRun) : LogEntry :=
  let record := case.record
  let entry : LogEntry :=
    { timestamp, traceId := "", level := case.outcome.level, event := "case_result"
      outcome := some case.outcome
      exitCode := record.exitCode
      durationMs := case.milliseconds.map (min · greatestDuration)
      details := if record.verdict.passed then none
        else some (.object
          [("actual", .string record.actual), ("expected", .string record.expected),
            ("result", .string record.verdict.name)]) }
  entry.withCase record.type record.format record.value

/-- The entry at the end, with the counts. -/
def endEntry (timestamp : String) (summary : Summary) : LogEntry :=
  { timestamp, traceId := "", level := .info, event := "run_end"
    outcome := some (if summary.allPassed then .pass else .fail)
    details := some (.object
      [("aborted", .bool summary.aborted), ("failed", .nat summary.failed),
        ("passed", .nat summary.passed), ("skipped", .nat summary.skipped),
        ("total", .nat summary.total)]) }

/-- The entries of the cases. Each entry reads the clock when it is made, the `n`-th entry of a run
as `clock n`, and the one at the start is made before these. -/
def caseEntries (run : Run) (clock : Nat → String) : List LogEntry :=
  run.cases.mapIdx fun k case => caseEntry (clock (k + 1)) case

/-- The entries of a run, without trace ids. A run that could not go on has no last entry. -/
def bareEntries (run : Run) (clock : Nat → String) (subjectName : String) (plan : TestPlan) :
    List LogEntry :=
  startEntry (clock 0) subjectName plan :: run.caseEntries clock
    ++ (if run.error?.isSome then [] else [endEntry (clock (run.cases.length + 1)) run.summary])

def log (run : Run) (runId : String) (clock : Nat → String) (subjectName : String)
    (plan : TestPlan) : List LogEntry :=
  Emitter.emitAll { runId } (run.bareEntries clock subjectName plan)

end Run
end FormatCheck
