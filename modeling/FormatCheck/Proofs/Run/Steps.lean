import FormatCheck.Proofs.Outcome
import FormatCheck.Run
import Mathlib.Data.List.Basic

/-!
# Steps of a run

A run takes the steps of its plan in order, up to and including the first one that it stops at:
`Run.ofPlan_eq`. The steps of a plan are written with a `CaseTable`, which says what each case comes
to, so that nothing about subjects, literals or the engine has to be known where only the order of
the steps matters.

`Progress.take` is one step of this, and the loops of a run over values, formats and groups are all
folds of it.
-/

namespace FormatCheck

/-! ## Planned cases -/

/-- What the case of a type, a format and a value comes to. -/
abbrev CaseTable := SemanticType → String → Value → CaseRun

namespace CaseTable

/-- The table has what the cases of the plan come to under a subject and a configuration. -/
def IsOf (table : CaseTable) (subject : Subject) (config : Config) (plan : TestPlan) : Prop :=
  ∀ group ∈ plan.groups, ∀ format ∈ group.formats, ∀ v ∈ group.values,
    CaseRun.execute subject config group.type v format = .ok (table group.type format v)

/-- The cases of a group in order, its formats in the outer loop. -/
def groupCases (table : CaseTable) (group : TestGroup) : List CaseRun :=
  group.formats.flatMap fun format => group.values.map (table group.type format)

def groupSteps (table : CaseTable) (group : TestGroup) : List Step :=
  .enter group.type :: ((table.groupCases group).map .case ++ [.leave])

def planSteps (table : CaseTable) (plan : TestPlan) : List Step :=
  plan.groups.flatMap table.groupSteps

end CaseTable

/-- Every value of the plan has a literal. -/
def TestPlan.Encodable (plan : TestPlan) : Prop :=
  ∀ group ∈ plan.groups, ∀ v ∈ group.values, ∃ literal, Literal.encode group.type v = .ok literal

/-- What a case with a literal comes to. -/
def CaseRun.withLiteral (subject : Subject) (config : Config) (type : SemanticType) (v : Value)
    (format : String) (literal : Bytes) : CaseRun :=
  match expectedRendering format v, config.dispatchRejected with
  | .error e, false => { record := .rejected type format v e }
  | expected, _ => ofAnswer type format v expected (subject format type.tag literal)

theorem CaseRun.execute_eq (subject : Subject) (config : Config) (type : SemanticType) (v : Value)
    (format : String) :
    execute subject config type v format =
      (Literal.encode type v).map (withLiteral subject config type v format) := by
  unfold execute canonicalize withLiteral
  cases hliteral : Literal.encode type v with
  | error e => rfl
  | ok literal =>
      cases expectedRendering format v with
      | error e => cases config.dispatchRejected <;> rfl
      | ok text => rfl

/-- A case is recorded with the type, the format and the value that it was executed for. -/
theorem CaseRun.coordinates_of_execute {subject : Subject} {config : Config} {type : SemanticType}
    {v : Value} {format : String} {run : CaseRun}
    (h : execute subject config type v format = .ok run) :
    run.record.type = type ∧ run.record.format = format ∧ run.record.value = v.repr := by
  rw [execute_eq] at h
  rcases exists_of_map_eq_ok h with ⟨literal, _, rfl⟩
  unfold withLiteral
  split
  · exact ⟨rfl, rfl, rfl⟩
  · cases subject format type.tag literal with
    | ok output => exact ⟨rfl, rfl, rfl⟩
    | error e => exact ⟨rfl, rfl, rfl⟩

theorem TestPlan.Encodable.exists_table {plan : TestPlan} (hplan : plan.Encodable)
    (subject : Subject) (config : Config) : ∃ table : CaseTable, table.IsOf subject config plan := by
  -- The literal of a value that has none is never asked for.
  refine ⟨fun type format v => .withLiteral subject config type v format
    ((Literal.encode type v).toOption.getD []), ?_⟩
  intro group hgroup format _ v hv
  rcases hplan group hgroup v hv with ⟨literal, hliteral⟩
  simp only [CaseRun.execute_eq, hliteral]
  rfl

/-! ## Stopping -/

def Step.fails : Step → Bool
  | .case run => run.record.verdict.failed
  | .enter _ | .leave => false

/-- The configuration with the option to stop at the first failure set as given. -/
def Config.stopping (config : Config) (stops : Bool) : Config :=
  { config with abortOnFirstFailure := stops }

/-- Whether a run ends after the step. -/
def Config.stopsAt (config : Config) (step : Step) : Bool :=
  step.fails && config.abortOnFirstFailure

variable {α : Type} {p : α → Bool} {l : List α}

/-- The part of a list up to and including the first element with a property. -/
def takeThrough (p : α → Bool) : List α → List α
  | [] => []
  | a :: l => if p a then [a] else a :: takeThrough p l

theorem takeThrough_append (h : ∀ a ∈ l, p a = false) (m : List α) :
    takeThrough p (l ++ m) = l ++ takeThrough p m := by
  induction l with
  | nil =>
      rfl
  | cons a l ih =>
      have ha : p a = false := h a List.mem_cons_self
      have hrest := ih fun b hb => h b (List.mem_cons_of_mem a hb)
      simp [takeThrough, ha, hrest]

theorem takeThrough_eq_self (h : ∀ a ∈ l, p a = false) : takeThrough p l = l := by
  simpa [takeThrough] using takeThrough_append h []

theorem takeThrough_append_cons {a : α} (h : ∀ b ∈ l, p b = false) (ha : p a = true) (m : List α) :
    takeThrough p (l ++ a :: m) = l ++ [a] := by
  rw [takeThrough_append h, takeThrough, if_pos ha]

/-! ## Execution -/

variable {subject : Subject} {config : Config} {plan : TestPlan} {table : CaseTable}

namespace Progress

/-- Takes a step, unless the run has stopped, and stops if that is a step to stop at. -/
def take (config : Config) (progress : Progress) (step : Step) : Progress :=
  if progress.stop.isSome then progress
  else
    { latestFirst := step :: progress.latestFirst
      stop := if config.stopsAt step then some .failure else none }

theorem add_eq_take {step : Step} (hstep : step.fails = false) (progress : Progress) :
    progress.add step = progress.take config step := by
  rcases progress with ⟨latestFirst, stop⟩
  cases stop with
  | some reason => rfl
  | none => simp [add, take, Config.stopsAt, hstep]

theorem execute_eq_take {type : SemanticType} {format : String} {v : Value} {run : CaseRun}
    (h : CaseRun.execute subject config type v format = .ok run) (progress : Progress) :
    progress.execute subject config type format v = progress.take config (.case run) := by
  unfold execute take
  rw [h]
  rfl

theorem foldl_take_of_stop {progress : Progress} (h : progress.stop.isSome) (steps : List Step) :
    steps.foldl (take config) progress = progress := by
  induction steps with
  | nil =>
      rfl
  | cons step steps ih =>
      have hstay : progress.take config step = progress := by simp [take, h]
      rw [List.foldl_cons, hstay, ih]

/-- Steps are taken up to and including the first one to stop at. -/
theorem foldl_take (steps latestFirst : List Step) :
    steps.foldl (take config) ⟨latestFirst, none⟩ =
      ⟨(takeThrough config.stopsAt steps).reverse ++ latestFirst,
        if steps.any config.stopsAt then some .failure else none⟩ := by
  induction steps generalizing latestFirst with
  | nil =>
      rfl
  | cons step steps ih =>
      cases hstep : config.stopsAt step with
      | true =>
          have htake : take config ⟨latestFirst, none⟩ step =
              ⟨step :: latestFirst, some .failure⟩ := by simp [take, hstep]
          rw [List.foldl_cons, htake, foldl_take_of_stop rfl]
          simp [takeThrough, hstep]
      | false =>
          have htake : take config ⟨latestFirst, none⟩ step = ⟨step :: latestFirst, none⟩ := by
            simp [take, hstep]
          rw [List.foldl_cons, htake, ih]
          simp [takeThrough, hstep]

/-- A group is executed step by step. -/
theorem executeGroup_eq {group : TestGroup}
    (htable : ∀ format ∈ group.formats, ∀ v ∈ group.values,
      CaseRun.execute subject config group.type v format = .ok (table group.type format v))
    (progress : Progress) :
    progress.executeGroup subject config group =
      (table.groupSteps group).foldl (take config) progress := by
  have hvalues : ∀ format ∈ group.formats, ∀ progress : Progress,
      group.values.foldl (execute subject config group.type format) progress =
        ((group.values.map (table group.type format)).map Step.case).foldl (take config)
          progress := by
    intro format hformat progress
    rw [List.foldl_map, List.foldl_map]
    refine List.foldl_ext _ _ progress ?_
    intro progress v hv
    exact execute_eq_take (htable format hformat v hv) progress
  have hformats : ∀ progress : Progress,
      group.formats.foldl (fun progress format =>
        group.values.foldl (execute subject config group.type format) progress) progress =
        ((table.groupCases group).map Step.case).foldl (take config) progress := by
    intro progress
    rw [CaseTable.groupCases, List.map_flatMap, List.foldl_flatMap]
    refine List.foldl_ext _ _ progress ?_
    intro progress format hformat
    exact hvalues format hformat progress
  have henter : progress.add (.enter group.type) = progress.take config (.enter group.type) :=
    add_eq_take rfl progress
  rw [CaseTable.groupSteps, List.foldl_cons, List.foldl_append, ← hformats, ← henter]
  exact add_eq_take rfl _

end Progress

/-- A run takes the steps of its plan up to and including the first one that it stops at. -/
theorem Run.ofPlan_eq (htable : table.IsOf subject config plan) :
    Run.ofPlan subject config plan =
      ⟨takeThrough config.stopsAt (table.planSteps plan),
        if (table.planSteps plan).any config.stopsAt then some .failure else none⟩ := by
  have hgroups : plan.groups.foldl (Progress.executeGroup subject config) {} =
      (table.planSteps plan).foldl (Progress.take config) {} := by
    rw [CaseTable.planSteps, List.foldl_flatMap]
    refine List.foldl_ext _ _ _ ?_
    intro progress group hgroup
    exact Progress.executeGroup_eq (htable group hgroup) progress
  have hsteps : (table.planSteps plan).foldl (Progress.take config) {} = _ :=
    Progress.foldl_take (table.planSteps plan) []
  rw [Run.ofPlan, hgroups, hsteps, List.append_nil, List.reverse_reverse]

/-- Without the option to stop at a failure all steps of the plan are taken. -/
theorem Run.ofPlan_eq_planSteps (hgoes : config.abortOnFirstFailure = false)
    (htable : table.IsOf subject config plan) :
    Run.ofPlan subject config plan = ⟨table.planSteps plan, none⟩ := by
  have hstops : ∀ step, config.stopsAt step = false := by
    intro step
    rw [Config.stopsAt, hgoes, Bool.and_false]
  have hany : (table.planSteps plan).any config.stopsAt = false := by
    simpa using fun step _ => hstops step
  rw [Run.ofPlan_eq htable, takeThrough_eq_self fun step _ => hstops step, hany]
  rfl

end FormatCheck
