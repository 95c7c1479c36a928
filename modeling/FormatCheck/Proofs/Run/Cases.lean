import FormatCheck.Proofs.Run.Steps

/-!
# Cases of runs

Every case of a run is what some case of the plan came to. If all values have literals, the cases
are those of the plan in order, up to and including the first one that the run stops at.
-/

namespace FormatCheck

variable {subject : Subject} {config : Config} {plan : TestPlan} {table : CaseTable}

/-- The case that a step executes, if it does. -/
def Step.case? : Step → Option CaseRun
  | .case run => some run
  | .enter _ | .leave => none

theorem Run.cases_eq (run : Run) : run.cases = run.steps.filterMap Step.case? := rfl

/-! ## Where cases come from -/

/-- The case is what some case of the plan came to. -/
def CaseRun.Planned (subject : Subject) (config : Config) (plan : TestPlan) (run : CaseRun) :
    Prop :=
  ∃ group ∈ plan.groups, ∃ format ∈ group.formats, ∃ v ∈ group.values,
    execute subject config group.type v format = .ok run

namespace Progress

/-- All cases executed so far have the property. -/
def AllCases (P : CaseRun → Prop) (progress : Progress) : Prop :=
  ∀ run, Step.case run ∈ progress.latestFirst → P run

variable {P : CaseRun → Prop} {progress : Progress}

theorem AllCases.add (h : progress.AllCases P) {step : Step} (hstep : step.case? = none) :
    (progress.add step).AllCases P := by
  unfold Progress.add
  split
  · exact h
  · intro run hrun
    rcases List.mem_cons.mp hrun with rfl | hearlier
    · cases hstep
    · exact h run hearlier

theorem AllCases.execute (h : progress.AllCases P) {type : SemanticType} {format : String}
    {v : Value} (hP : ∀ run, CaseRun.execute subject config type v format = .ok run → P run) :
    (progress.execute subject config type format v).AllCases P := by
  unfold Progress.execute
  split
  · exact h
  · cases hexecute : CaseRun.execute subject config type v format with
    | error e =>
        exact h
    | ok executed =>
        intro run hrun
        rcases List.mem_cons.mp hrun with heq | hearlier
        · cases heq
          exact hP executed hexecute
        · exact h run hearlier

theorem AllCases.executeGroup (h : progress.AllCases P) {group : TestGroup}
    (hP : ∀ format ∈ group.formats, ∀ v ∈ group.values, ∀ run,
      CaseRun.execute subject config group.type v format = .ok run → P run) :
    (progress.executeGroup subject config group).AllCases P := by
  -- The property goes through both loops, from entering the group to leaving it.
  refine AllCases.add ?_ rfl
  refine List.foldlRecOn group.formats _ (h.add rfl) ?_
  intro progress h format hformat
  refine List.foldlRecOn group.values _ h ?_
  intro progress h v hv
  exact h.execute (hP format hformat v hv)

end Progress

theorem Run.planned_of_mem_cases {run : CaseRun} (h : run ∈ (ofPlan subject config plan).cases) :
    run.Planned subject config plan := by
  have hall : (plan.groups.foldl (Progress.executeGroup subject config) {}).AllCases
      (CaseRun.Planned subject config plan) := by
    refine List.foldlRecOn plan.groups _ ?_ ?_
    · intro run hrun
      cases hrun
    · intro progress hprogress group hgroup
      refine hprogress.executeGroup ?_
      intro format hformat v hv run hrun
      exact ⟨group, hgroup, format, hformat, v, hv, hrun⟩
  rw [Run.cases_eq] at h
  rcases List.mem_filterMap.mp h with ⟨step, hstep, hcase⟩
  cases step with
  | case executed =>
      cases hcase
      exact hall run (List.mem_reverse.mp hstep)
  | enter type => cases hcase
  | leave => cases hcase

/-! ## The order of cases -/

/-- What the cases of the plan are about, in the order of the plan. -/
def TestPlan.coordinates (plan : TestPlan) : List (SemanticType × String × Value) :=
  plan.groups.flatMap fun group =>
    group.formats.flatMap fun format => group.values.map fun v => (group.type, format, v)

namespace CaseTable

def planCases (table : CaseTable) (plan : TestPlan) : List CaseRun :=
  plan.coordinates.map fun (type, format, v) => table type format v

theorem planCases_eq (table : CaseTable) (plan : TestPlan) :
    table.planCases plan = plan.groups.flatMap table.groupCases := by
  simp only [planCases, TestPlan.coordinates, List.map_flatMap, List.map_map]
  rfl

theorem filterMap_planSteps (table : CaseTable) (plan : TestPlan) :
    (table.planSteps plan).filterMap Step.case? = table.planCases plan := by
  have hgroup : ∀ group, (table.groupSteps group).filterMap Step.case? = table.groupCases group := by
    intro group
    have hcases : ∀ cases : List CaseRun, (cases.map Step.case).filterMap Step.case? = cases := by
      intro cases
      rw [List.filterMap_map]
      exact List.filterMap_some
    simp [groupSteps, List.filterMap_append, List.filterMap_cons, Step.case?, hcases]
  rw [planSteps, List.filterMap_flatMap, planCases_eq]
  simp only [hgroup]

end CaseTable

theorem filterMap_takeThrough {p : Step → Bool} (hp : ∀ step, step.case? = none → p step = false)
    (steps : List Step) :
    (takeThrough p steps).filterMap Step.case? =
      takeThrough (fun run => p (.case run)) (steps.filterMap Step.case?) := by
  induction steps with
  | nil =>
      rfl
  | cons step steps ih =>
      cases hcase : step.case? with
      | none =>
          have hstep : p step = false := hp step hcase
          simp [takeThrough, hstep, hcase, ih]
      | some run =>
          -- Only a step that executes a case has one.
          have hstep : step = .case run := by
            cases step with
            | case other => exact congrArg Step.case (Option.some.inj hcase)
            | enter type => cases hcase
            | leave => cases hcase
          subst hstep
          cases hrun : p (.case run) with
          | true => simp [takeThrough, hrun, hcase]
          | false => simp [takeThrough, hrun, hcase, ih]

theorem Run.cases_ofPlan (htable : table.IsOf subject config plan) :
    (ofPlan subject config plan).cases =
      takeThrough (fun run => config.stopsAt (.case run)) (table.planCases plan) := by
  have hstops : ∀ step, step.case? = none → config.stopsAt step = false := by
    intro step hstep
    cases step with
    | case run => cases hstep
    | enter type => rfl
    | leave => rfl
  rw [cases_eq, ofPlan_eq htable, filterMap_takeThrough hstops, CaseTable.filterMap_planSteps]

theorem takeThrough_isPrefix {α : Type} (p : α → Bool) (l : List α) : takeThrough p l <+: l := by
  induction l with
  | nil =>
      exact List.prefix_rfl
  | cons a l ih =>
      unfold takeThrough
      split
      · exact List.prefix_append [a] l
      · exact (List.prefix_cons_inj a).mpr ih

/-- A run executes the first cases of its plan. -/
theorem Run.cases_eq_take (htable : table.IsOf subject config plan) :
    (ofPlan subject config plan).cases =
      (plan.coordinates.take (ofPlan subject config plan).cases.length).map
        fun (type, format, v) => table type format v := by
  have hprefix : (ofPlan subject config plan).cases <+: table.planCases plan := by
    rw [cases_ofPlan htable]
    exact takeThrough_isPrefix _ _
  rw [List.map_take]
  exact List.prefix_iff_eq_take.mp hprefix

theorem Run.length_cases_le (htable : table.IsOf subject config plan) :
    (ofPlan subject config plan).cases.length ≤ plan.coordinates.length := by
  have hlength := congrArg List.length (cases_eq_take htable)
  rw [List.length_map, List.length_take] at hlength
  omega

theorem CaseTable.IsOf.execute_eq (htable : table.IsOf subject config plan)
    {type : SemanticType} {format : String} {v : Value}
    (h : (type, format, v) ∈ plan.coordinates) :
    CaseRun.execute subject config type v format = .ok (table type format v) := by
  simp only [TestPlan.coordinates, List.mem_flatMap, List.mem_map] at h
  rcases h with ⟨group, hgroup, format, hformat, v, hv, heq⟩
  cases heq
  exact htable group hgroup format hformat v hv

theorem TestPlan.length_coordinates (plan : TestPlan) :
    plan.coordinates.length = plan.totalCases := by
  -- The sum is taken from the left, so its start is general in the induction.
  have hgroups : ∀ (groups : List TestGroup) (total : Nat),
      groups.foldl (fun total group => total + group.caseCount) total =
        total + (TestPlan.mk groups).coordinates.length := by
    intro groups
    induction groups with
    | nil =>
        intro total
        rfl
    | cons group groups ih =>
        intro total
        have hgroup : (group.formats.flatMap fun format =>
            group.values.map fun v => (group.type, format, v)).length = group.caseCount := by
          simp [TestGroup.caseCount, List.length_flatMap, Nat.mul_comm]
        rw [List.foldl_cons, ih, coordinates, coordinates, List.flatMap_cons, List.length_append,
          hgroup, Nat.add_assoc]
  have hplan := hgroups plan.groups 0
  rw [Nat.zero_add] at hplan
  exact hplan.symm

end FormatCheck
