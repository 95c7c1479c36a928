import FormatCheck.Proofs.Run.Log

/-!
# Agreement of logs and summaries

The log of a run reports an outcome for every case, and the summary counts the cases by their
verdicts. The two agree but for one kind of case: one that the engine rejects and that was sent to a
subject that timed out. The log reports it as a timeout, while the summary counts it as passed, as
if the subject had refused it. `Run.log_agrees` has the number of these cases as the difference.
-/

namespace FormatCheck

variable {subject : Subject} {config : Config} {plan : TestPlan}

/-! ## Cases that time out -/

namespace CaseRun

/-- The subject timed out on a case that the engine rejects. -/
def lateRejection (run : CaseRun) : Bool := run.timedOut && run.record.verdict = .bothRejected

theorem of_timedOut {type : SemanticType} {v : Value} {format : String} {run : CaseRun}
    (h : execute subject config type v format = .ok run) (hlate : run.timedOut = true) :
    (∃ text, expectedRendering format v = .ok text ∧ run.record.verdict = .subjectError) ∨
      ∃ e, expectedRendering format v = .error e ∧ run.record.verdict = .bothRejected ∧
        config.dispatchRejected = true := by
  rw [execute_eq] at h
  rcases exists_of_map_eq_ok h with ⟨literal, _, rfl⟩
  -- Only an output can be late: a subject that could not be started has no status.
  have hanswer : ∀ expected answer, (ofAnswer type format v expected answer).timedOut = true →
      ∃ output : SubjectOutput, answer = .ok output ∧ output.status = .timedOut := by
    intro expected answer htimedOut
    cases answer with
    | ok output => exact ⟨output, rfl, by simpa [ofAnswer] using htimedOut⟩
    | error e => cases htimedOut
  cases hexpected : expectedRendering format v with
  | ok text =>
      simp only [withLiteral, hexpected] at hlate ⊢
      rcases hanswer _ _ hlate with ⟨output, houtput, hstatus⟩
      simp [houtput, ofAnswer, CaseRecord.ofOutput, CaseRecord.judge, SubjectOutput.success,
        hstatus]
  | error e =>
      -- A rejected case that was not sent has no subject that could time out.
      cases hsent : config.dispatchRejected with
      | false =>
          simp [withLiteral, hexpected, hsent] at hlate
      | true =>
          simp only [withLiteral, hexpected, hsent] at hlate ⊢
          rcases hanswer _ _ hlate with ⟨output, houtput, hstatus⟩
          simp [houtput, ofAnswer, CaseRecord.ofOutput, CaseRecord.judge,
            SubjectOutput.success, hstatus]

end CaseRun

namespace Outcome

def isPass (outcome : Outcome) : Bool := outcome = pass

def isSkip (outcome : Outcome) : Bool := outcome = skip

/-- A failure, an error or a timeout. -/
def isFailure (outcome : Outcome) : Bool := outcome = fail || outcome = error || outcome = timeout

/-- How the outcome of a case is classified, against its verdict. -/
theorem classes_ofVerdict (verdict : Verdict) (timedOut : Bool)
    (h : timedOut = true → verdict = .subjectError ∨ verdict = .bothRejected) :
    let late := timedOut && verdict = .bothRejected
    (ofVerdict verdict timedOut).isPass.toNat + late.toNat = verdict.passed.toNat ∧
      (ofVerdict verdict timedOut).isSkip = verdict.skipped ∧
      verdict.failed.toNat + late.toNat = (ofVerdict verdict timedOut).isFailure.toNat := by
  revert h
  cases timedOut <;> cases verdict <;> decide

end Outcome

/-! ## Counting entries -/

/-- The entry reports an outcome of a case with the property. -/
def LogEntry.reports (p : Outcome → Bool) (entry : LogEntry) : Bool :=
  entry.event = "case_result" && entry.outcome.any p

namespace Run

variable (run : Run) (runId : String) (clock : Nat → String) (subjectName : String)

/-- The entries about cases are one for each case, with its outcome. -/
theorem countP_reports_log (p : Outcome → Bool) :
    (run.log runId clock subjectName plan).countP (LogEntry.reports p) =
      run.cases.countP fun case => p case.outcome := by
  -- What an entry reports does not depend on its trace id.
  have hkept : (run.log runId clock subjectName plan).countP (LogEntry.reports p) =
      (run.bareEntries clock subjectName plan).countP (LogEntry.reports p) := by
    have hmap := Emitter.map_numbered runId 0 (run.bareEntries clock subjectName plan)
      (f := LogEntry.reports p) fun _ _ => rfl
    rw [← log_eq_numbered] at hmap
    simpa [List.countP_map] using congrArg (List.countP id) hmap
  have hends : (if run.error?.isSome then []
      else [endEntry (clock (run.cases.length + 1)) run.summary]).countP
        (LogEntry.reports p) = 0 := by
    split
    · rfl
    · rfl
  have hcases : (run.caseEntries clock).countP (LogEntry.reports p) =
      run.cases.countP fun case => p case.outcome := by
    have hmap := map_caseEntries clock (f := LogEntry.reports p) (g := fun case => p case.outcome)
      (fun _ _ => rfl) run
    simpa [List.countP_map] using congrArg (List.countP id) hmap
  rw [hkept, bareEntries, List.countP_append, hends, List.countP_cons_of_neg, hcases]
  · rfl
  · simp [startEntry, LogEntry.reports]

end Run

/-! ## Agreement -/

namespace Run

/-- The number of cases that the engine rejects and the subject timed out on. -/
def lateRejections (run : Run) : Nat := run.cases.countP CaseRun.lateRejection

/-- How the entries of a log and a summary of the same run agree. -/
structure Agrees (config : Config) (run : Run) (log : List LogEntry) : Prop where
  passed : log.countP (LogEntry.reports Outcome.isPass) + run.lateRejections = run.summary.passed
  skipped : log.countP (LogEntry.reports Outcome.isSkip) = run.summary.skipped
  failed : log.countP (LogEntry.reports Outcome.isFailure) =
    run.summary.failed + run.lateRejections
  lateRejections : config.dispatchRejected = false → run.lateRejections = 0
  timedOut : ∀ case ∈ run.cases, case.timedOut = true → case.lateRejection = false →
    case.record.verdict = .subjectError

theorem log_agrees (subject : Subject) (config : Config) (plan : TestPlan)
    (runId : String) (clock : Nat → String) (subjectName : String) :
    (ofPlan subject config plan).Agrees config
      ((ofPlan subject config plan).log runId clock subjectName plan) := by
  let run := ofPlan subject config plan
  have hlate : ∀ case ∈ run.cases, case.timedOut = true →
      case.record.verdict = .subjectError ∨
        case.record.verdict = .bothRejected ∧ config.dispatchRejected = true := by
    intro case hcase htimedOut
    rcases planned_of_mem_cases hcase with ⟨group, _, format, _, v, _, hexecute⟩
    rcases CaseRun.of_timedOut hexecute htimedOut with ⟨_, _, hverdict⟩ | ⟨_, _, hverdict⟩
    · exact Or.inl hverdict
    · exact Or.inr hverdict
  -- Case by case, the outcome and the verdict differ by whether the case is a late rejection.
  have hcase : ∀ case ∈ run.cases,
      case.outcome.isPass.toNat + case.lateRejection.toNat = case.record.verdict.passed.toNat ∧
        case.outcome.isSkip = case.record.verdict.skipped ∧
        case.record.verdict.failed.toNat + case.lateRejection.toNat =
          case.outcome.isFailure.toNat := by
    intro case hmem
    refine Outcome.classes_ofVerdict case.record.verdict case.timedOut ?_
    intro htimedOut
    exact (hlate case hmem htimedOut).imp_right And.left
  have hentries : ∀ p, (run.log runId clock subjectName plan).countP (LogEntry.reports p) =
      run.cases.countP fun case => p case.outcome :=
    countP_reports_log run runId clock subjectName
  exact
    { passed := by
        rw [hentries, Summary.tallies_passed.summary_run]
        exact countP_add_countP fun case h => (hcase case h).1
      skipped := by
        rw [hentries, Summary.tallies_skipped.summary_run]
        exact List.countP_congr fun case h => by rw [(hcase case h).2.1]
      failed := by
        rw [hentries, Summary.tallies_failed.summary_run]
        exact (countP_add_countP fun case h => (hcase case h).2.2).symm
      lateRejections := by
        intro hkept
        refine List.countP_eq_zero.mpr ?_
        intro case h hrejection
        simp only [CaseRun.lateRejection, Bool.and_eq_true, decide_eq_true_eq] at hrejection
        rcases hlate case h hrejection.1 with herror | ⟨_, hsent⟩
        · rw [herror] at hrejection
          exact absurd hrejection.2 (by decide)
        · rw [hkept] at hsent
          cases hsent
      timedOut := by
        intro case h htimedOut hother
        rcases hlate case h htimedOut with herror | ⟨hverdict, _⟩
        · exact herror
        · simp [CaseRun.lateRejection, htimedOut, hverdict] at hother }

/-- A text with a sign, which the engine rejects. -/
def signedTextPlan : TestPlan := ⟨[⟨.string, [.str "a"], ["{:+}"]⟩]⟩

/-- A subject that is killed after its wait every time. -/
def hangingSubject : Subject :=
  fun _ _ _ => .ok { status := .timedOut, stdout := "", stderr := "", microseconds := 12345 }

/-- A rejected case that times out: the log has one timeout and no pass, the summary has one pass
and no failure. -/
theorem log_disagrees_signedTextPlan :
    let run := ofPlan hangingSubject { dispatchRejected := true } signedTextPlan
    let log := run.log "run" (fun n => Timestamp.utc ⟨n, 0⟩) "subject" signedTextPlan
    run.error? = none ∧ run.cases.map CaseRun.timedOut = [true] ∧
      log.countP (LogEntry.reports Outcome.isPass) = 0 ∧ run.summary.passed = 1 ∧
      log.countP (LogEntry.reports Outcome.isFailure) = 1 ∧ run.summary.failed = 0 := by
  decide +kernel

end Run
end FormatCheck
