import FormatCheck.Json.Printer
import FormatCheck.Summary

/-!
# Reports

The report of a run, as a Markdown document for readers and as JSON for programs.
-/

namespace FormatCheck

structure Report where
  title : String
  subject : String
  timestamp : String
  fingerprint : String
  summary : Summary
  deriving DecidableEq, Repr

namespace Report

/-! ## Markdown -/

/-- A text set as code. -/
def code (s : String) : String := "\x60" ++ s ++ "\x60"

/-- A fenced block, its content ending in a line break. -/
def fenced (info content : String) : String :=
  "\x60\x60\x60" ++ info ++ "\n" ++ content ++ "\x60\x60\x60\n"

/-- An item of the list at the head of the document. -/
def item (name value : String) : String := "- " ++ name ++ ": " ++ value ++ "\n"

def head (report : Report) : String :=
  let summary := report.summary
  "# " ++ report.title ++ "\n\n"
    ++ item "Subject" (code report.subject)
    ++ item "Timestamp" report.timestamp
    ++ item "Plan fingerprint" (code report.fingerprint)
    ++ item "Total" (Numeral.showNat summary.total)
    ++ item "Passed" (Numeral.showNat summary.passed)
    ++ item "Failed" (Numeral.showNat summary.failed)
    ++ item "Skipped" (Numeral.showNat summary.skipped)
    ++ (if summary.aborted then "- Aborted at first failure\n" else "")
    ++ "\n"

def typeRow (counts : TypeCounts) : String :=
  let cells := [counts.type.tag, Numeral.showNat counts.total, Numeral.showNat counts.passed,
    Numeral.showNat counts.failed, Numeral.showNat counts.skipped,
    if counts.failed = 0 then "PASS" else "FAIL"]
  "| " ++ " | ".intercalate cells ++ " |\n"

def table (types : List TypeCounts) : String :=
  "| Type | Total | Passed | Failed | Skipped | Status |\n"
    ++ "|------|-------|--------|--------|---------|--------|\n"
    ++ String.join (types.map typeRow)

/-- The section of a failure: its difference, or what the subject reported. -/
def failureSection (failure : Failure) : String :=
  let case := failure.case
  "\n### " ++ code case.type.tag ++ " " ++ code case.format ++ " with " ++ code case.value
    ++ "\n\n"
    ++ match failure.diff with
      | some diff => fenced "diff" diff
      | none =>
        "expected " ++ code case.expected ++ ", subject reported:\n\n"
          ++ fenced "" (case.actual ++ "\n")

/-- The sections of the failures, if there are any. -/
def failures (summary : Summary) : String :=
  if summary.failures.isEmpty then ""
  else
    "\n## Failures\n" ++ String.join (summary.failures.map failureSection)
      ++ (if summary.omittedFailures = 0 then ""
        else "\n" ++ Numeral.showNat summary.omittedFailures
          ++ " more failures omitted; see the run transcript.\n")

def markdown (report : Report) : String :=
  report.head ++ table report.summary.types ++ failures report.summary

/-! ## JSON -/

def toJson (report : Report) : Json :=
  .object [("title", .string report.title), ("subject", .string report.subject),
    ("timestamp", .string report.timestamp), ("fingerprint", .string report.fingerprint),
    ("summary", report.summary.toJson)]

def jsonText (report : Report) : String := report.toJson.indented

end Report
end FormatCheck
