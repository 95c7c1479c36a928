import FormatCheck.Proofs.Run.Summary
import Mathlib.Tactic.FinCases

/-!
# Transcripts of runs

A run writes the transcript that its plan lays out: group by group the line of every case and then
an empty line. A run that stops at its first failure writes the part of this transcript that ends
with the line of that failure. In both cases the summary is that of the cases written, and the lines
bear the tags that the summary counts.
-/

namespace FormatCheck

open Summary (recordGroups)

/-! ## The transcript of a plan -/

/-- The lines of cases, each with its line break. -/
def caseLines (cases : List CaseRun) : String :=
  String.join (cases.map fun case => case.record.line ++ "\n")

namespace CaseTable

/-- The lines of a group's cases and an empty line. -/
def groupTranscript (table : CaseTable) (group : TestGroup) : String :=
  caseLines (table.groupCases group) ++ "\n"

def transcript (table : CaseTable) (groups : List TestGroup) : String :=
  String.join (groups.map table.groupTranscript)

/-- No case of the groups fails. -/
def Passes (table : CaseTable) (groups : List TestGroup) : Prop :=
  ∀ group ∈ groups, ∀ case ∈ table.groupCases group, case.record.verdict.failed = false

/-- The first case of a plan that fails: the groups before its group, and the cases of its group
before it. -/
structure FirstFailure (table : CaseTable) (plan : TestPlan) where
  done : List TestGroup
  group : TestGroup
  later : List TestGroup
  earlier : List CaseRun
  case : CaseRun
  unexecuted : List CaseRun
  groups_eq : plan.groups = done ++ group :: later
  cases_eq : table.groupCases group = earlier ++ case :: unexecuted
  done_passes : table.Passes done
  earlier_passes : ∀ c ∈ earlier, c.record.verdict.failed = false
  fails : case.record.verdict.failed = true

variable {table : CaseTable} {plan : TestPlan}

theorem passes_or_exists_firstFailure (table : CaseTable) (plan : TestPlan) :
    table.Passes plan.groups ∨ Nonempty (FirstFailure table plan) := by
  let failing (case : CaseRun) : Bool := case.record.verdict.failed
  cases hgroup : plan.groups.find? fun group => (table.groupCases group).any failing with
  | none =>
      refine Or.inl ?_
      intro group hmem case hcase
      have hnone := List.find?_eq_none.mp hgroup group hmem
      simp only [List.any_eq_true, not_exists, not_and] at hnone
      exact Bool.eq_false_iff.mpr (hnone case hcase)
  | some group =>
      -- Within the first group that has a failure, its first failure is the first of all.
      rcases List.find?_eq_some_iff_append.mp hgroup with ⟨hany, done, later, hgroups, hdone⟩
      cases hcase : (table.groupCases group).find? failing with
      | none =>
          rcases List.any_eq_true.mp hany with ⟨case, hmem, hfails⟩
          exact absurd hfails (List.find?_eq_none.mp hcase case hmem)
      | some case =>
          rcases List.find?_eq_some_iff_append.mp hcase with
            ⟨hfails, earlier, unexecuted, hcases, hearlier⟩
          refine Or.inr ⟨⟨done, group, later, earlier, case, unexecuted, hgroups, hcases, ?_, ?_,
            hfails⟩⟩
          · intro g hg c hc
            have hnone := hdone g hg
            simp only [Bool.not_eq_true', List.any_eq_false] at hnone
            exact Bool.eq_false_iff.mpr (hnone c hc)
          · intro c hc
            simpa [failing] using hearlier c hc

end CaseTable

/-! ## Texts of steps -/

/-- What steps add to the transcript. -/
def stepsText (steps : List Step) : String := String.join (steps.map Run.stepText)

theorem stepsText_append (steps rest : List Step) :
    stepsText (steps ++ rest) = stepsText steps ++ stepsText rest := by
  rw [stepsText, List.map_append, String.join_append]
  rfl

theorem stepsText_cases (cases : List CaseRun) :
    stepsText (cases.map Step.case) = caseLines cases := by
  rw [stepsText, List.map_map]
  rfl

theorem stepsText_cons (step : Step) (steps : List Step) :
    stepsText (step :: steps) = Run.stepText step ++ stepsText steps := by
  rw [stepsText, List.map_cons, String.join_cons]
  rfl

variable {table : CaseTable} {plan : TestPlan}

theorem stepsText_group (group : TestGroup) :
    stepsText (table.groupSteps group) = table.groupTranscript group := by
  have henter : Run.stepText (.enter group.type) = "" := rfl
  have hleave : stepsText [.leave] = "\n" := by decide
  rw [CaseTable.groupSteps, stepsText_cons, stepsText_append, stepsText_cases, henter, hleave,
    String.empty_append]
  rfl

theorem stepsText_groups (groups : List TestGroup) :
    stepsText (groups.flatMap table.groupSteps) = table.transcript groups := by
  induction groups with
  | nil =>
      rfl
  | cons group groups ih =>
      rw [List.flatMap_cons, stepsText_append, stepsText_group, ih, CaseTable.transcript,
        CaseTable.transcript, List.map_cons, String.join_cons]

/-! ## Tags of lines -/

/-- The line begins with the tag. -/
def hasTag (tag line : String) : Bool := tag.toList.isPrefixOf line.toList

/-- The tag of a line says whether its case passed, failed or was skipped. -/
theorem hasTag_line (r : CaseRecord) :
    hasTag "[  OK  ]" r.line = r.verdict.passed ∧ hasTag "[ FAIL ]" r.line = r.verdict.failed ∧
      hasTag "[ SKIP ]" r.line = r.verdict.skipped := by
  rcases r with ⟨type, format, value, verdict, expected, actual, exitCode⟩
  cases verdict <;>
    simp [hasTag, CaseRecord.line, List.isPrefixOf, Verdict.passed, Verdict.failed,
      Verdict.skipped]

namespace Run

/-- The number of lines of cases that begin with the tag. -/
def linesWithTag (tag : String) (run : Run) : Nat :=
  (run.cases.map fun case => case.record.line).countP (hasTag tag)

/-- The summary counts the lines of the transcript by their tags. -/
structure LinesCounted (run : Run) : Prop where
  passed : run.linesWithTag "[  OK  ]" = run.summary.passed
  failed : run.linesWithTag "[ FAIL ]" = run.summary.failed
  skipped : run.linesWithTag "[ SKIP ]" = run.summary.skipped

theorem linesWithTag_eq {tag : String} {p : Verdict → Bool}
    (h : ∀ r : CaseRecord, hasTag tag r.line = p r.verdict) (run : Run) :
    run.linesWithTag tag = run.cases.countP fun case => p case.record.verdict := by
  rw [linesWithTag, List.countP_map]
  refine List.countP_congr ?_
  intro case _
  simp [h]

theorem linesCounted (run : Run) : run.LinesCounted where
  passed := by
    rw [linesWithTag_eq (fun r => (hasTag_line r).1), Summary.tallies_passed.summary_run]
  failed := by
    rw [linesWithTag_eq (fun r => (hasTag_line r).2.1), Summary.tallies_failed.summary_run]
  skipped := by
    rw [linesWithTag_eq (fun r => (hasTag_line r).2.2), Summary.tallies_skipped.summary_run]

/-! ## Whole runs -/

/-- The run wrote the whole transcript of the plan and recorded all of its cases. -/
structure WritesAll (table : CaseTable) (plan : TestPlan) (run : Run) : Prop where
  stop_eq : run.stop = none
  transcript_eq : run.transcript = table.transcript plan.groups
  summary_eq : run.summary = recordGroups table plan.groups
  rowTypes_eq : run.summary.rowTypes = (plan.groups.map TestGroup.type).eraseDups

theorem aborted_recordGroups (groups : List TestGroup) :
    (recordGroups table groups).aborted = false := by
  rw [← foldl_countStep_groups, aborted_foldl_countStep]

theorem writesAll_planSteps (htyped : Summary.Typed table plan.groups) :
    (⟨table.planSteps plan, none⟩ : Run).WritesAll table plan := by
  have hsummary : (⟨table.planSteps plan, none⟩ : Run).summary =
      recordGroups table plan.groups := by
    rw [summary, CaseTable.planSteps, foldl_countStep_groups]
    -- Of the summary of a run that went on to its end, `aborted` is as it was at the start.
    have haborted : (recordGroups table plan.groups).aborted = false :=
      aborted_recordGroups plan.groups
    generalize recordGroups table plan.groups = recorded at haborted
    rcases recorded
    cases haborted
    rfl
  exact
    { stop_eq := rfl
      transcript_eq := stepsText_groups plan.groups
      summary_eq := hsummary
      rowTypes_eq := by rw [hsummary, Summary.rowTypes_recordGroups htyped] }

end Run

/-! ## Runs that stop -/

namespace CaseTable.FirstFailure

variable (first : table.FirstFailure plan)

/-- The cases of the group of the failure that are executed, the failing one last. -/
def lastCases : List CaseRun := first.earlier ++ [first.case]

/-- The steps before the one that fails. -/
def passedSteps : List Step :=
  first.done.flatMap table.groupSteps
    ++ .enter first.group.type :: first.earlier.map Step.case

/-- The steps after the one that fails. -/
def untakenSteps : List Step :=
  first.unexecuted.map Step.case ++ .leave :: first.later.flatMap table.groupSteps

theorem planSteps_eq :
    table.planSteps plan = first.passedSteps ++ .case first.case :: first.untakenSteps := by
  rw [planSteps, first.groups_eq, List.flatMap_append, List.flatMap_cons, groupSteps,
    first.cases_eq]
  simp [passedSteps, untakenSteps]

theorem takenSteps_eq : first.passedSteps ++ [.case first.case] =
    first.done.flatMap table.groupSteps
      ++ .enter first.group.type :: first.lastCases.map Step.case := by
  simp [passedSteps, lastCases]

end CaseTable.FirstFailure

theorem CaseTable.Passes.fails_eq_false {groups : List TestGroup} (h : table.Passes groups) :
    ∀ step ∈ groups.flatMap table.groupSteps, step.fails = false := by
  intro step hstep
  rcases List.mem_flatMap.mp hstep with ⟨group, hgroup, hmem⟩
  simp only [CaseTable.groupSteps, List.mem_cons, List.mem_append, List.mem_map,
    List.not_mem_nil, or_false] at hmem
  rcases hmem with rfl | ⟨case, hcase, rfl⟩ | rfl
  · rfl
  · exact h group hgroup case hcase
  · rfl

theorem CaseTable.FirstFailure.fails_eq_false (first : table.FirstFailure plan) :
    ∀ step ∈ first.passedSteps, step.fails = false := by
  intro step hstep
  simp only [passedSteps, List.mem_append, List.mem_cons, List.mem_map] at hstep
  rcases hstep with hdone | rfl | ⟨case, hcase, rfl⟩
  · exact first.done_passes.fails_eq_false step hdone
  · rfl
  · exact first.earlier_passes case hcase

namespace Run

/-- The run wrote the transcript of the plan through the line of the first failure, and recorded the
cases up to it. -/
structure WritesThrough (first : table.FirstFailure plan) (run : Run) : Prop where
  stop_eq : run.stop = some .failure
  transcript_eq : run.transcript = table.transcript first.done ++ caseLines first.lastCases
  isPrefix : ∃ rest, table.transcript plan.groups = run.transcript ++ rest
  summary_eq : run.summary =
    { ((recordGroups table first.done).touch first.group.type).recordCases first.lastCases with
      aborted := true }
  rowTypes_eq : run.summary.rowTypes =
    ((first.done ++ [first.group]).map TestGroup.type).eraseDups

theorem writesThrough_takenSteps (htyped : Summary.Typed table plan.groups)
    (first : table.FirstFailure plan) :
    (⟨first.passedSteps ++ [.case first.case], some .failure⟩ : Run).WritesThrough first := by
  let run : Run := ⟨first.passedSteps ++ [.case first.case], some .failure⟩
  have htranscript : run.transcript =
      table.transcript first.done ++ caseLines first.lastCases := by
    have henter : stepText (.enter first.group.type) = "" := rfl
    have htext : run.transcript = stepsText (first.passedSteps ++ [.case first.case]) := rfl
    rw [htext, first.takenSteps_eq, stepsText_append, stepsText_groups, stepsText_cons,
      stepsText_cases, henter, String.empty_append]
  -- What the whole transcript goes on with are the steps that were not taken.
  have hprefix : table.transcript plan.groups =
      run.transcript ++ stepsText first.untakenSteps := by
    have hsteps : table.planSteps plan =
        (first.passedSteps ++ [.case first.case]) ++ first.untakenSteps := by
      rw [first.planSteps_eq, List.append_assoc, List.singleton_append]
    rw [← stepsText_groups, ← CaseTable.planSteps, hsteps, stepsText_append]
    rfl
  have hsummary : run.summary =
      { ((recordGroups table first.done).touch first.group.type).recordCases first.lastCases with
        aborted := true } := by
    have hcount : run.steps.foldl countStep {} =
        ((recordGroups table first.done).touch first.group.type).recordCases first.lastCases := by
      have hsteps : run.steps = first.passedSteps ++ [.case first.case] := rfl
      rw [hsteps, first.takenSteps_eq, List.foldl_append, foldl_countStep_groups,
        List.foldl_cons, foldl_countStep_cases]
      rfl
    rw [summary, hcount]
    rfl
  have hrows : run.summary.rowTypes =
      ((first.done ++ [first.group]).map TestGroup.type).eraseDups := by
    have hdone : Summary.Typed table first.done := by
      intro group hgroup
      exact htyped group (first.groups_eq ▸ List.mem_append_left _ hgroup)
    -- The row of the last group is there once it is entered, and its cases add no other.
    have hlast : ∀ case ∈ first.lastCases, case.record.type = first.group.type := by
      intro case hcase
      have hgroup : first.group ∈ plan.groups := by simp [first.groups_eq]
      refine htyped first.group hgroup case ?_
      rw [first.cases_eq, List.append_cons]
      exact List.mem_append_left _ hcase
    have hrecorded := Summary.rowTypes_recordGroup hlast (recordGroups table first.done)
    rw [Summary.rowTypes_recordGroups hdone, Summary.withRow_eraseDups] at hrecorded
    rw [hsummary, List.map_append]
    exact hrecorded
  exact
    { stop_eq := rfl
      transcript_eq := htranscript
      isPrefix := ⟨_, hprefix⟩
      summary_eq := hsummary
      rowTypes_eq := hrows }

/-! ## Every run -/

variable {subject : Subject} {config : Config}

theorem ofPlan_eq_of_passes (htable : table.IsOf subject config plan)
    (hpasses : table.Passes plan.groups) :
    ofPlan subject config plan = ⟨table.planSteps plan, none⟩ := by
  have hgoes : ∀ step ∈ table.planSteps plan, config.stopsAt step = false := by
    intro step hstep
    rw [Config.stopsAt, hpasses.fails_eq_false step hstep, Bool.false_and]
  have hany : (table.planSteps plan).any config.stopsAt = false := by
    simpa using hgoes
  rw [ofPlan_eq htable, takeThrough_eq_self hgoes, hany]
  rfl

theorem ofPlan_eq_of_firstFailure (hstops : config.abortOnFirstFailure = true)
    (htable : table.IsOf subject config plan) (first : table.FirstFailure plan) :
    ofPlan subject config plan =
      ⟨first.passedSteps ++ [.case first.case], some .failure⟩ := by
  have hgoes : ∀ step ∈ first.passedSteps, config.stopsAt step = false := by
    intro step hstep
    rw [Config.stopsAt, first.fails_eq_false step hstep, Bool.false_and]
  have hlast : config.stopsAt (.case first.case) = true := by
    rw [Config.stopsAt, hstops, Bool.and_true]
    exact first.fails
  have hany : (first.passedSteps ++ .case first.case :: first.untakenSteps).any config.stopsAt =
      true := by
    simp [hlast]
  rw [ofPlan_eq htable, first.planSteps_eq, takeThrough_append_cons hgoes hlast, hany]
  rfl

/-- The transcripts and the summaries of the two runs that a configuration allows for. The run to the
end of the plan writes the whole transcript of the plan. The run that is to stop at a failure does
the same if no case fails, and otherwise writes the part of the transcript that ends with the line
of the first failure. -/
theorem writes_ofPlan (subject : Subject) (config : Config) (hplan : plan.Encodable) :
    ∃ table : CaseTable, table.IsOf subject config plan ∧
      (let whole := ofPlan subject (config.stopping false) plan
       whole.WritesAll table plan ∧ whole.LinesCounted) ∧
      (let stopped := ofPlan subject (config.stopping true) plan
       ((table.Passes plan.groups ∧ stopped.WritesAll table plan) ∨
         ∃ first : table.FirstFailure plan, stopped.WritesThrough first) ∧
       stopped.LinesCounted) := by
  rcases hplan.exists_table subject config with ⟨table, htable⟩
  -- What a case comes to does not depend on where the run stops.
  have hstopping : ∀ stops, table.IsOf subject (config.stopping stops) plan := fun _ => htable
  refine ⟨table, htable, ⟨?_, linesCounted _⟩, ?_, linesCounted _⟩
  · rw [ofPlan_eq_planSteps rfl (hstopping false)]
    exact writesAll_planSteps htable.typed
  · rcases table.passes_or_exists_firstFailure plan with hpasses | ⟨⟨first⟩⟩
    · refine Or.inl ⟨hpasses, ?_⟩
      rw [ofPlan_eq_of_passes (hstopping true) hpasses]
      exact writesAll_planSteps htable.typed
    · refine Or.inr ⟨first, ?_⟩
      rw [ofPlan_eq_of_firstFailure rfl (hstopping true) first]
      exact writesThrough_takenSteps htable.typed first

/-- A group without cases, one of which the second case fails if the subject always prints `True`,
and one after it. -/
def stoppedPlan : TestPlan :=
  ⟨[⟨.int8, [.int 1], []⟩, ⟨.bool, [.bool true, .bool false, .bool true], ["{}"]⟩,
    ⟨.char, [.int 65], ["{:d}"]⟩]⟩

/-- A subject that prints the same whatever it is asked. -/
def constantSubject (stdout : String) : Subject :=
  fun _ _ _ => .ok { status := .exited 0, stdout, stderr := "", microseconds := 0 }

theorem writes_ofPlan_stoppedPlan :
    let stopped := ofPlan (constantSubject "True") (Config.stopping {} true) stoppedPlan
    stoppedPlan.Encodable ∧
      (∃ table : CaseTable, ∃ first : table.FirstFailure stoppedPlan,
        stopped.WritesThrough first) ∧
      stopped.transcript =
        "\n[  OK  ] bool '{}'.format(True): True == True\n"
          ++ "[ FAIL ] bool '{}'.format(False): False != True\n" := by
  intro stopped
  have hplan : stoppedPlan.Encodable := by
    intro group hgroup v hv
    fin_cases hgroup <;> fin_cases hv <;> exact ⟨_, rfl⟩
  have htranscript : stopped.transcript =
      "\n[  OK  ] bool '{}'.format(True): True == True\n"
        ++ "[ FAIL ] bool '{}'.format(False): False != True\n" := by
    decide +kernel
  have hstop : stopped.stop = some .failure := by
    decide +kernel
  rcases writes_ofPlan (constantSubject "True") {} hplan with ⟨table, _, _, hstopped, _⟩
  rcases hstopped with ⟨_, hall⟩ | ⟨first, hthrough⟩
  · exact absurd (hall.stop_eq.symm.trans hstop) (by simp)
  · exact ⟨hplan, ⟨table, first, hthrough⟩, htranscript⟩

end Run
end FormatCheck
