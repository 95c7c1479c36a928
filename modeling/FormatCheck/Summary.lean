import FormatCheck.CaseRecord
import FormatCheck.Diff

/-!
# Summaries of runs

The counts of a run, in all and per semantic type, and its first failures in full. A summary is
built by two operations: `touch` makes sure that a type has a row, and `record` counts a case.
-/

namespace FormatCheck

/-- The counts of one semantic type. -/
structure TypeCounts where
  type : SemanticType
  total : Nat := 0
  passed : Nat := 0
  failed : Nat := 0
  skipped : Nat := 0
  deriving DecidableEq, Repr

def TypeCounts.record (counts : TypeCounts) (verdict : Verdict) : TypeCounts :=
  let counts := { counts with total := counts.total + 1 }
  if verdict.passed then { counts with passed := counts.passed + 1 }
  else if verdict.skipped then { counts with skipped := counts.skipped + 1 }
  else { counts with failed := counts.failed + 1 }

/-- A failing case, with the difference of its renderings if it is a mismatch. -/
structure Failure where
  case : CaseRecord
  diff : Option String
  deriving DecidableEq, Repr

def Failure.ofRecord (r : CaseRecord) : Failure :=
  ⟨r, if r.verdict = .mismatch then some (Diff.render r.expected r.actual) else none⟩

structure Summary where
  total : Nat := 0
  passed : Nat := 0
  failed : Nat := 0
  skipped : Nat := 0
  /-- Whether the run stopped at its first failure. -/
  aborted : Bool := false
  /-- The counts per type, in the order in which the types came up. -/
  types : List TypeCounts := []
  /-- The first failures, in full. -/
  failures : List Failure := []
  /-- The number of failures after those. -/
  omittedFailures : Nat := 0
  deriving DecidableEq, Repr

namespace Summary

/-- The number of failures kept in full. -/
def retainedFailures : Nat := 50

/-- Changes the row of a type, which is added at the end if there is none. -/
def updateType (type : SemanticType) (f : TypeCounts → TypeCounts) :
    List TypeCounts → List TypeCounts
  | [] => [f { type }]
  | counts :: rest =>
    if counts.type = type then f counts :: rest else counts :: updateType type f rest

/-- Makes sure that a type has a row. -/
def touch (summary : Summary) (type : SemanticType) : Summary :=
  { summary with types := updateType type id summary.types }

/-- Counts a failing case and keeps it if there is room. -/
def addFailure (summary : Summary) (r : CaseRecord) : Summary :=
  let summary := { summary with failed := summary.failed + 1 }
  if summary.failures.length < retainedFailures then
    { summary with failures := summary.failures ++ [Failure.ofRecord r] }
  else { summary with omittedFailures := summary.omittedFailures + 1 }

def record (summary : Summary) (r : CaseRecord) : Summary :=
  let summary :=
    { summary with
      total := summary.total + 1
      types := updateType r.type (·.record r.verdict) summary.types }
  if r.verdict.passed then { summary with passed := summary.passed + 1 }
  else if r.verdict.skipped then { summary with skipped := summary.skipped + 1 }
  else summary.addFailure r

def ofRecords (records : List CaseRecord) : Summary := records.foldl record {}

def allPassed (summary : Summary) : Bool := summary.failed = 0

/-! ## JSON -/

def typeJson (counts : TypeCounts) : Json :=
  .object [("semantic_type", .string counts.type.tag), ("total", .nat counts.total),
    ("passed", .nat counts.passed), ("failed", .nat counts.failed),
    ("skipped", .nat counts.skipped)]

def failureJson (failure : Failure) : Json :=
  .object [("case", failure.case.toJson), ("diff", .ofOption .string failure.diff)]

def toJson (summary : Summary) : Json :=
  .object [("total", .nat summary.total), ("passed", .nat summary.passed),
    ("failed", .nat summary.failed), ("skipped", .nat summary.skipped),
    ("aborted", .bool summary.aborted), ("types", .array (summary.types.map typeJson)),
    ("failures", .array (summary.failures.map failureJson)),
    ("omitted_failures", .nat summary.omittedFailures)]

end Summary
end FormatCheck
