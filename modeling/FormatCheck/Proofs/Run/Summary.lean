import FormatCheck.Proofs.Run.Cases
import FormatCheck.Proofs.Summary.Books
import Mathlib.Data.List.Induction

/-!
# Summaries of runs

The summary of a run counts its cases by their verdicts and has a row for every type whose group was
entered, whether or not a case of the group was executed.
-/

namespace FormatCheck

open Summary (Tallies withRow)

/-! ## Entries -/

/-- What a step tells the summary. -/
def Step.entry? : Step → Option Summary.Entry
  | enter type => some (.touch type)
  | case run => some (.record run.record)
  | leave => none

/-- What a run tells its summary. -/
def Run.entries (run : Run) : List Summary.Entry := run.steps.filterMap Step.entry?

theorem Run.foldl_countStep (steps : List Step) (summary : Summary) :
    steps.foldl countStep summary = (steps.filterMap Step.entry?).foldl Summary.enter summary := by
  induction steps generalizing summary with
  | nil =>
      rfl
  | cons step steps ih =>
      rw [List.foldl_cons, ih]
      cases step <;> rfl

theorem Run.summary_eq (run : Run) :
    run.summary = { Summary.ofEntries run.entries with aborted := run.stop = some .failure } := by
  rw [summary, foldl_countStep]
  rfl

theorem Run.recordsOf_entries (run : Run) :
    Summary.recordsOf run.entries = run.cases.map CaseRun.record := by
  rw [cases_eq, Summary.recordsOf, entries, List.filterMap_filterMap, List.map_filterMap]
  refine List.filterMap_congr ?_
  intro step _
  cases step <;> rfl

/-! ## Counters -/

variable {count : Summary → Nat} {p : Verdict → Bool}

theorem Run.aborted_foldl_countStep (steps : List Step) (summary : Summary) :
    (steps.foldl countStep summary).aborted = summary.aborted := by
  induction steps generalizing summary with
  | nil =>
      rfl
  | cons step steps ih =>
      rw [List.foldl_cons, ih]
      cases step with
      | case run => exact (Summary.recorded_record summary run.record).aborted
      | enter type => rfl
      | leave => rfl

/-- A counter of a run's summary is the number of its cases with such a verdict. -/
theorem Summary.Tallies.summary_run (h : Tallies count p) (run : Run) :
    count run.summary = run.cases.countP fun case => p case.record.verdict := by
  rw [Run.summary_eq, h.aborted, h.ofEntries, Run.recordsOf_entries, List.countP_map]
  rfl

/-! ## Groups -/

namespace Summary

/-- Records cases one after the other. -/
def recordCases (summary : Summary) (cases : List CaseRun) : Summary :=
  cases.foldl (fun summary case => summary.record case.record) summary

/-- Gives the type of a group a row and records the group's cases. -/
def recordGroup (table : CaseTable) (summary : Summary) (group : TestGroup) : Summary :=
  (summary.touch group.type).recordCases (table.groupCases group)

/-- Records groups one after the other. -/
def recordGroups (table : CaseTable) (groups : List TestGroup) : Summary :=
  groups.foldl (recordGroup table) {}

end Summary

namespace Run

variable {table : CaseTable}

theorem foldl_countStep_cases (cases : List CaseRun) (summary : Summary) :
    (cases.map Step.case).foldl countStep summary = summary.recordCases cases := by
  rw [List.foldl_map]
  rfl

theorem foldl_countStep_group (group : TestGroup) (summary : Summary) :
    (table.groupSteps group).foldl countStep summary = summary.recordGroup table group := by
  rw [CaseTable.groupSteps, List.foldl_cons, List.foldl_append, foldl_countStep_cases]
  rfl

theorem foldl_countStep_groups (groups : List TestGroup) :
    (groups.flatMap table.groupSteps).foldl countStep {} = .recordGroups table groups := by
  rw [List.foldl_flatMap, Summary.recordGroups]
  refine List.foldl_ext _ _ _ ?_
  intro summary group _
  exact foldl_countStep_group group summary

end Run

/-! ## Rows -/

namespace Summary

/-- Cases of a type that has a row add none. -/
theorem rowTypes_recordCases {type : SemanticType} {cases : List CaseRun}
    (hcases : ∀ case ∈ cases, case.record.type = type) {summary : Summary}
    (hrow : type ∈ summary.rowTypes) : (summary.recordCases cases).rowTypes = summary.rowTypes := by
  induction cases generalizing summary with
  | nil =>
      rfl
  | cons case cases ih =>
      have htype : case.record.type = type := hcases case List.mem_cons_self
      have hrows : (summary.record case.record).rowTypes = summary.rowTypes := by
        rw [rowTypes_record, htype, withRow_of_mem hrow]
      have hrest := ih (fun c hc => hcases c (List.mem_cons_of_mem case hc)) (hrows ▸ hrow)
      exact hrest.trans hrows

variable {table : CaseTable} {groups : List TestGroup}

/-- The cases of the groups are of the types of their groups. -/
def Typed (table : CaseTable) (groups : List TestGroup) : Prop :=
  ∀ group ∈ groups, ∀ case ∈ table.groupCases group, case.record.type = group.type

theorem rowTypes_recordGroup {group : TestGroup} {cases : List CaseRun}
    (htype : ∀ case ∈ cases, case.record.type = group.type) (summary : Summary) :
    ((summary.touch group.type).recordCases cases).rowTypes =
      withRow group.type summary.rowTypes := by
  have hrow : group.type ∈ (summary.touch group.type).rowTypes := by
    rw [rowTypes_touch]
    exact mem_withRow group.type summary.rowTypes
  rw [rowTypes_recordCases htype hrow, rowTypes_touch]

/-- Every group has a row, in the order in which the types come up. -/
theorem rowTypes_recordGroups (htype : Typed table groups) :
    (recordGroups table groups).rowTypes = (groups.map TestGroup.type).eraseDups := by
  induction groups using List.reverseRecOn with
  | nil =>
      rfl
  | append_singleton groups group ih =>
      have hlast := htype group (List.mem_append_right groups List.mem_cons_self)
      have hgroups := ih fun g hg => htype g (List.mem_append_left [group] hg)
      have hfold : recordGroups table (groups ++ [group]) =
          recordGroup table (recordGroups table groups) group := by
        rw [recordGroups, List.foldl_append]
        rfl
      rw [hfold, recordGroup, rowTypes_recordGroup hlast, hgroups, withRow_eraseDups,
        List.map_append]
      rfl

end Summary

/-- A case is recorded under the type of its group. -/
theorem CaseTable.IsOf.typed {table : CaseTable} {subject : Subject} {config : Config}
    {plan : TestPlan} (htable : table.IsOf subject config plan) :
    Summary.Typed table plan.groups := by
  intro group hgroup case hcase
  rcases List.mem_flatMap.mp hcase with ⟨format, hformat, hvalues⟩
  rcases List.mem_map.mp hvalues with ⟨v, hv, rfl⟩
  exact (CaseRun.coordinates_of_execute (htable group hgroup format hformat v hv)).1

end FormatCheck
