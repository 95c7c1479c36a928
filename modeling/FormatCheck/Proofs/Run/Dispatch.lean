import FormatCheck.Proofs.Run.Summary
import Mathlib.Data.List.Forall2

/-!
# Sending rejected cases

Two runs of one plan that differ only in whether cases that the engine rejects are sent to the
subject. Both execute the cases of the plan in order, and `CaseRun.Compares` compares them case by
case: an accepted case is the same in both, a rejected one is recorded unsent in the first run, and
by what the subject does with it in the second.

That a rejected case never reaches the subject in the first run is said by exchanging the subject: a
subject that answers the accepted cases alike gives the very same run.
-/

namespace FormatCheck

variable {subject : Subject} {config : Config} {plan : TestPlan}

/-- The configuration with the option to send rejected cases set as given. -/
def Config.dispatching (config : Config) (sends : Bool) : Config :=
  { config with dispatchRejected := sends }

/-- Whether the engine rejects a format for a value. -/
def rejects (format : String) (v : Value) : Bool :=
  match expectedRendering format v with
  | .ok _ => false
  | .error _ => true

theorem rejects_of_ok {format text : String} {v : Value}
    (h : expectedRendering format v = .ok text) : rejects format v = false := by
  simp only [rejects, h]

theorem rejects_of_error {format : String} {v : Value} {e : FormatError}
    (h : expectedRendering format v = .error e) : rejects format v = true := by
  simp only [rejects, h]

/-! ## One case -/

namespace CaseRun

/-- The verdict on a rejected case that is sent: the subject is expected to fail. -/
def verdictOnRejected : Except InvocationError SubjectOutput → Verdict
  | .error _ => .subjectError
  | .ok output => if output.status = .exited 0 then .unexpectedRendering else .bothRejected

/-- The record is about the case of a type, a format and a value. -/
def IsAbout (type : SemanticType) (format : String) (v : Value) (run : CaseRun) : Prop :=
  run.record.type = type ∧ run.record.format = format ∧ run.record.value = v.repr

/-- What a case comes to where rejected cases are kept, and where they are sent. -/
structure Compares (subject : Subject) (type : SemanticType) (format : String) (v : Value)
    (kept sent : CaseRun) : Prop where
  about : kept.IsAbout type format v ∧ sent.IsAbout type format v
  accepted : ∀ text, expectedRendering format v = .ok text → sent = kept
  rejected : ∀ e, expectedRendering format v = .error e →
    kept = { record := .rejected type format v e } ∧
      ∃ literal, Literal.encode type v = .ok literal ∧
        sent = ofAnswer type format v (.error e) (subject format type.tag literal) ∧
        sent.record.verdict = verdictOnRejected (subject format type.tag literal)
  skipped : kept.record.verdict.skipped = rejects format v ∧ sent.record.verdict.skipped = false

variable {type : SemanticType} {format : String} {v : Value}

theorem verdict_ofAnswer_error (e : FormatError) (answer : Except InvocationError SubjectOutput) :
    (ofAnswer type format v (.error e) answer).record.verdict = verdictOnRejected answer := by
  cases answer with
  | error failure => rfl
  | ok output =>
      by_cases hstatus : output.status = .exited 0
      · simp [ofAnswer, CaseRecord.ofOutput, CaseRecord.judge, SubjectOutput.success,
          verdictOnRejected, hstatus]
      · simp [ofAnswer, CaseRecord.ofOutput, CaseRecord.judge, SubjectOutput.success,
          verdictOnRejected, hstatus]

/-- A case that was sent is never counted as skipped. -/
theorem skipped_ofAnswer (expected : Except FormatError String)
    (answer : Except InvocationError SubjectOutput) :
    (ofAnswer type format v expected answer).record.verdict.skipped = false := by
  cases answer with
  | error failure => rfl
  | ok output =>
      have hjudge : (CaseRecord.judge expected output).skipped = false := by
        unfold CaseRecord.judge
        split
        · split
          · rfl
          · rfl
        · rfl
        · rfl
        · rfl
      exact hjudge

theorem withLiteral_of_ok {text : String} (h : expectedRendering format v = .ok text)
    (literal : Bytes) :
    withLiteral subject config type v format literal =
      ofAnswer type format v (.ok text) (subject format type.tag literal) := by
  simp only [withLiteral, h]

theorem withLiteral_kept {e : FormatError} (h : expectedRendering format v = .error e)
    (literal : Bytes) :
    withLiteral subject (config.dispatching false) type v format literal =
      { record := .rejected type format v e } := by
  simp only [withLiteral, h, Config.dispatching]

theorem withLiteral_sent {e : FormatError} (h : expectedRendering format v = .error e)
    (literal : Bytes) :
    withLiteral subject (config.dispatching true) type v format literal =
      ofAnswer type format v (.error e) (subject format type.tag literal) := by
  simp only [withLiteral, h, Config.dispatching]

theorem isAbout_withLiteral {literal : Bytes} (hliteral : Literal.encode type v = .ok literal) :
    (withLiteral subject config type v format literal).IsAbout type format v := by
  have hexecute : execute subject config type v format =
      .ok (withLiteral subject config type v format literal) := by
    rw [execute_eq, hliteral]
    rfl
  exact coordinates_of_execute hexecute

theorem compares_withLiteral {literal : Bytes} (hliteral : Literal.encode type v = .ok literal) :
    Compares subject type format v
      (withLiteral subject (config.dispatching false) type v format literal)
      (withLiteral subject (config.dispatching true) type v format literal) := by
  refine ⟨⟨isAbout_withLiteral hliteral, isAbout_withLiteral hliteral⟩, ?_, ?_, ?_⟩
  · intro text htext
    rw [withLiteral_of_ok htext, withLiteral_of_ok htext]
  · intro e he
    exact ⟨withLiteral_kept he literal, literal, hliteral, withLiteral_sent he literal,
      by rw [withLiteral_sent he, verdict_ofAnswer_error]⟩
  · cases hexpected : expectedRendering format v with
    | ok text =>
        rw [rejects_of_ok hexpected, withLiteral_of_ok hexpected, withLiteral_of_ok hexpected]
        exact ⟨skipped_ofAnswer _ _, skipped_ofAnswer _ _⟩
    | error e =>
        rw [rejects_of_error hexpected, withLiteral_kept hexpected, withLiteral_sent hexpected]
        exact ⟨rfl, skipped_ofAnswer _ _⟩

end CaseRun

/-! ## Whole runs -/

/-- The subjects answer alike whenever they are asked about an accepted case of the plan. -/
def Subject.AgreesOnAccepted (subject subject' : Subject) (plan : TestPlan) : Prop :=
  ∀ type format v, (type, format, v) ∈ plan.coordinates → rejects format v = false →
    ∀ literal, Literal.encode type v = .ok literal →
      subject' format type.tag literal = subject format type.tag literal

namespace Run

/-- How a run that keeps rejected cases to itself compares with one that sends them. -/
structure DiffersInRejected (subject : Subject) (config : Config) (plan : TestPlan)
    (kept sent : Run) : Prop where
  completed : kept.stop = none ∧ sent.stop = none
  length : kept.cases.length = plan.coordinates.length ∧
    sent.cases.length = plan.coordinates.length
  cases : List.Forall₂
    (fun (case : SemanticType × String × Value) (runs : CaseRun × CaseRun) =>
      CaseRun.Compares subject case.1 case.2.1 case.2.2 runs.1 runs.2)
    plan.coordinates (kept.cases.zip sent.cases)
  unasked : ∀ subject', subject.AgreesOnAccepted subject' plan →
    ofPlan subject' (config.dispatching false) plan = kept
  skipped : kept.summary.skipped = plan.coordinates.countP fun case => rejects case.2.1 case.2.2
  none_skipped : sent.summary.skipped = 0
  total : kept.summary.total = sent.summary.total

variable {table : CaseTable}

/-- A table of a configuration is one of every subject that answers the accepted cases alike, as
long as no other case is sent. -/
theorem isOf_of_agreesOnAccepted {subject' : Subject} (h : subject.AgreesOnAccepted subject' plan)
    (htable : table.IsOf subject (config.dispatching false) plan) :
    table.IsOf subject' (config.dispatching false) plan := by
  intro group hgroup format hformat v hv
  have hexecute := htable group hgroup format hformat v hv
  have hmem : (group.type, format, v) ∈ plan.coordinates := by
    simp only [TestPlan.coordinates, List.mem_flatMap, List.mem_map]
    exact ⟨group, hgroup, format, hformat, v, hv, rfl⟩
  rw [CaseRun.execute_eq] at hexecute ⊢
  cases hliteral : Literal.encode group.type v with
  | error e =>
      rw [hliteral] at hexecute
      cases hexecute
  | ok literal =>
      rw [hliteral] at hexecute
      rw [← hexecute]
      refine congrArg Except.ok ?_
      cases hexpected : expectedRendering format v with
      | error e => rw [CaseRun.withLiteral_kept hexpected, CaseRun.withLiteral_kept hexpected]
      | ok text =>
          rw [CaseRun.withLiteral_of_ok hexpected, CaseRun.withLiteral_of_ok hexpected,
            h _ _ _ hmem (rejects_of_ok hexpected) literal hliteral]

/-- Sending rejected cases changes what they are recorded as, and nothing else: the runs execute the
same cases, agree on those that the engine accepts, and the cases that the first skips are those
that the second sends. -/
theorem differsInRejected_ofPlan (subject : Subject) (hplan : plan.Encodable)
    (hgoes : config.abortOnFirstFailure = false) :
    DiffersInRejected subject config plan (ofPlan subject (config.dispatching false) plan)
      (ofPlan subject (config.dispatching true) plan) := by
  rcases hplan.exists_table subject (config.dispatching false) with ⟨kept, hkept⟩
  rcases hplan.exists_table subject (config.dispatching true) with ⟨sent, hsent⟩
  have hkeptRun : ofPlan subject (config.dispatching false) plan = ⟨kept.planSteps plan, none⟩ :=
    ofPlan_eq_planSteps hgoes hkept
  have hsentRun : ofPlan subject (config.dispatching true) plan = ⟨sent.planSteps plan, none⟩ :=
    ofPlan_eq_planSteps hgoes hsent
  have hkeptCases : (ofPlan subject (config.dispatching false) plan).cases = kept.planCases plan :=
    hkeptRun ▸ CaseTable.filterMap_planSteps kept plan
  have hsentCases : (ofPlan subject (config.dispatching true) plan).cases = sent.planCases plan :=
    hsentRun ▸ CaseTable.filterMap_planSteps sent plan
  have hcompares : ∀ case ∈ plan.coordinates, CaseRun.Compares subject case.1 case.2.1 case.2.2
      (kept case.1 case.2.1 case.2.2) (sent case.1 case.2.1 case.2.2) := by
    rintro ⟨type, format, v⟩ hcase
    have hexecuteKept := hkept.execute_eq hcase
    have hexecuteSent := hsent.execute_eq hcase
    rw [CaseRun.execute_eq] at hexecuteKept hexecuteSent
    rcases exists_of_map_eq_ok hexecuteKept with ⟨literal, hliteral, hkeptRun⟩
    rw [hliteral] at hexecuteSent
    have hsentRun := Except.ok.inj hexecuteSent
    exact hkeptRun ▸ hsentRun ▸ CaseRun.compares_withLiteral hliteral
  refine ⟨?_, ?_, ?_, ?_, ?_, ?_, ?_⟩
  · rw [hkeptRun, hsentRun]
    exact ⟨rfl, rfl⟩
  · rw [hkeptCases, hsentCases, CaseTable.planCases, CaseTable.planCases]
    exact ⟨List.length_map _, List.length_map _⟩
  · rw [hkeptCases, hsentCases, CaseTable.planCases, CaseTable.planCases, List.zip_map',
      List.forall₂_map_right_iff, List.forall₂_same]
    exact hcompares
  · intro subject' hagrees
    rw [ofPlan_eq (isOf_of_agreesOnAccepted hagrees hkept), ofPlan_eq hkept]
  · rw [Summary.tallies_skipped.summary_run, hkeptCases, CaseTable.planCases, List.countP_map]
    exact List.countP_congr fun case hcase => by simp [(hcompares case hcase).skipped.1]
  · rw [Summary.tallies_skipped.summary_run, hsentCases, CaseTable.planCases, List.countP_map]
    exact List.countP_eq_zero.mpr fun case hcase => by simp [(hcompares case hcase).skipped.2]
  · rw [Summary.tallies_total.summary_run, Summary.tallies_total.summary_run, hkeptCases,
      hsentCases]
    simp [CaseTable.planCases]

/-- Two texts, of which the engine accepts the first format and rejects the second. -/
def halfRejectedPlan : TestPlan := ⟨[⟨.string, [.str "a", .str "b"], ["{}", "{:+}"]⟩]⟩

/-- A subject that prints `a` whatever it is asked. -/
def letterSubject : Subject :=
  fun _ _ _ => .ok { status := .exited 0, stdout := "a", stderr := "", microseconds := 0 }

/-- Both runs have four cases; the two that the first skips are renderings where none was expected
in the second. -/
theorem differsInRejected_ofPlan_halfRejectedPlan :
    let kept := ofPlan letterSubject (Config.dispatching {} false) halfRejectedPlan
    let sent := ofPlan letterSubject (Config.dispatching {} true) halfRejectedPlan
    halfRejectedPlan.Encodable ∧
      DiffersInRejected letterSubject {} halfRejectedPlan kept sent ∧
      kept.cases.map (fun run => run.record.verdict) =
        [.matched, .mismatch, .referenceRejected, .referenceRejected] ∧
      sent.cases.map (fun run => run.record.verdict) =
        [.matched, .mismatch, .unexpectedRendering, .unexpectedRendering] := by
  have hplan : halfRejectedPlan.Encodable := by
    intro group hgroup v hv
    obtain rfl := List.mem_singleton.mp hgroup
    rcases List.mem_pair.mp hv with rfl | rfl
    · exact ⟨_, rfl⟩
    · exact ⟨_, rfl⟩
  exact ⟨hplan, differsInRejected_ofPlan letterSubject hplan rfl, by decide +kernel,
    by decide +kernel⟩

end Run
end FormatCheck
