import FormatCheck.Proofs.Json.Canonical
import FormatCheck.Proofs.Log.Emitter
import FormatCheck.Proofs.Log.File
import FormatCheck.Proofs.Run.Summary
import Mathlib.Tactic.FinCases

/-!
# Logs of runs

The log of a run begins with the start of the run, has one entry for each case that was executed, in
order, and ends with the end of the run. The trace ids count the entries, and each line of the text
of the log is read back as its entry, whatever characters the formats, the values and the outputs of
the subject hold.
-/

namespace FormatCheck

/-- The exit codes of the subject are integers of 32 bits. -/
def Subject.HasExitCodes (subject : Subject) : Prop :=
  ∀ format tag literal output, subject format tag literal = .ok output →
    ∀ code ∈ output.exitCode?, -2 ^ 31 ≤ code ∧ code < 2 ^ 31

variable {subject : Subject} {config : Config} {plan : TestPlan}

theorem CaseRun.exitCode_of_execute {type : SemanticType} {v : Value} {format : String}
    {run : CaseRun} (h : execute subject config type v format = .ok run)
    (hsubject : subject.HasExitCodes) :
    ∀ code ∈ run.record.exitCode, -2 ^ 31 ≤ code ∧ code < 2 ^ 31 := by
  rw [execute_eq] at h
  rcases exists_of_map_eq_ok h with ⟨literal, _, rfl⟩
  intro code hcode
  unfold withLiteral at hcode
  split at hcode
  · cases hcode
  · cases hanswer : subject format type.tag literal with
    | error e =>
        rw [hanswer] at hcode
        cases hcode
    | ok output =>
        rw [hanswer] at hcode
        exact hsubject format type.tag literal output hanswer code hcode

/-! ## Valid entries -/

theorem Emitter.hasDoubleColon_traceId (runId : String) (number : Nat) :
    Log.hasDoubleColon (traceId runId number).toList = true := by
  have htext : (traceId runId number).toList = runId.toList ++
      ':' :: ':' :: Numeral.zeroPad 6 (Numeral.decimal number) := by
    simp [traceId]
  rw [Log.hasDoubleColon_iff, htext]
  exact ⟨runId.toList, Numeral.zeroPad 6 (Numeral.decimal number), by simp⟩

namespace LogEntry

/-- Details in the order in which they are read back, without floats. -/
structure DetailsPlain (entry : LogEntry) : Prop where
  normal : ∀ j ∈ entry.details, Json.Normal (Json.depthLimit - 1) j
  floats : ∀ j ∈ entry.details, j.floats = []

theorem DetailsPlain.legible {entry : LogEntry} (h : entry.DetailsPlain) :
    entry.DetailsLegible := by
  intro j hj
  refine (h.normal j hj).legible ?_
  rw [h.floats j hj]
  exact List.forall_mem_nil _

/-- An entry without a trace id that is valid, and read back as it is, with every trace id of a
run. -/
def Numberable (entry : LogEntry) : Prop :=
  ∀ runId number, ({ entry with traceId := Emitter.traceId runId number } : LogEntry).Valid ∧
    entry.DetailsPlain

/-- An entry is numberable whose details are objects in key order, with plain values in them. -/
theorem numberable_of_objects {entry : LogEntry} (hcase : entry.CaseTogether)
    (hbounded : entry.Bounded)
    (hdetails : ∀ j ∈ entry.details, ∃ members, j = .object members ∧
      (members.map Prod.fst).Pairwise (· < ·) ∧
      ∀ m ∈ members, Json.Normal (Json.depthLimit - 2) m.2 ∧ m.2.floats = []) :
    entry.Numberable := by
  intro runId number
  constructor
  · refine ⟨Emitter.hasDoubleColon_traceId runId number, hcase, hbounded.exitCode,
      hbounded.durationMs, ?_⟩
    intro hnull
    rcases hdetails .null hnull with ⟨members, hobject, _⟩
    cases hobject
  · constructor
    · intro j hj
      rcases hdetails j hj with ⟨members, rfl, hkeys, hmembers⟩
      exact .object (List.pairwise_map.mp hkeys) fun m hm => (hmembers m hm).1
    · intro j hj
      rcases hdetails j hj with ⟨members, rfl, _, hmembers⟩
      exact Json.floatsOfMembers_eq_nil fun m hm => (hmembers m hm).2

end LogEntry

theorem Json.normal_nat {n : Nat} (h : n < 2 ^ 64) (depth : Nat) : Json.Normal depth (.nat n) :=
  .integer depth (by omega) (by omega)

namespace Run

variable (timestamp subjectName : String)

theorem numberable_startEntry (hsize : plan.totalCases < 2 ^ 64) :
    (startEntry timestamp subjectName plan).Numberable := by
  refine LogEntry.numberable_of_objects (Or.inr ⟨rfl, rfl, rfl⟩) ⟨?_, ?_⟩ ?_
  · rintro _ ⟨⟩
  · rintro _ ⟨⟩
  · rintro _ ⟨⟩
    have hkeys : ["fingerprint", "subject", "total_cases"].Pairwise (· < ·) := by decide
    refine ⟨_, rfl, hkeys, ?_⟩
    simp only [List.forall_mem_cons]
    exact ⟨⟨.string _ _, rfl⟩, ⟨.string _ _, rfl⟩, ⟨Json.normal_nat hsize _, rfl⟩,
      List.forall_mem_nil _⟩

theorem numberable_caseEntry {case : CaseRun}
    (hcase : ∀ code ∈ case.record.exitCode, -2 ^ 31 ≤ code ∧ code < 2 ^ 31) :
    (caseEntry timestamp case).Numberable := by
  refine LogEntry.numberable_of_objects (Or.inl ⟨rfl, rfl, rfl⟩) ⟨hcase, ?_⟩ ?_
  · -- A time beyond the greatest is written as the greatest.
    intro ms hms
    rcases Option.map_eq_some_iff.mp hms with ⟨milliseconds, _, rfl⟩
    have hmin : min milliseconds greatestDuration ≤ greatestDuration := Nat.min_le_right _ _
    unfold greatestDuration at hmin ⊢
    omega
  · intro j hj
    simp only [caseEntry, LogEntry.withCase] at hj
    split at hj
    · cases hj
    · cases hj
      have hkeys : ["actual", "expected", "result"].Pairwise (· < ·) := by decide
      refine ⟨_, rfl, hkeys, ?_⟩
      simp only [List.forall_mem_cons]
      exact ⟨⟨.string _ _, rfl⟩, ⟨.string _ _, rfl⟩, ⟨.string _ _, rfl⟩, List.forall_mem_nil _⟩

theorem numberable_endEntry {summary : Summary}
    (hcounts : summary.total < 2 ^ 64 ∧ summary.passed < 2 ^ 64 ∧ summary.failed < 2 ^ 64 ∧
      summary.skipped < 2 ^ 64) :
    (endEntry timestamp summary).Numberable := by
  rcases hcounts with ⟨htotal, hpassed, hfailed, hskipped⟩
  refine LogEntry.numberable_of_objects (Or.inr ⟨rfl, rfl, rfl⟩) ⟨?_, ?_⟩ ?_
  · rintro _ ⟨⟩
  · rintro _ ⟨⟩
  · rintro _ ⟨⟩
    have hkeys : ["aborted", "failed", "passed", "skipped", "total"].Pairwise (· < ·) := by decide
    refine ⟨_, rfl, hkeys, ?_⟩
    simp only [List.forall_mem_cons]
    exact ⟨⟨.bool _ _, rfl⟩, ⟨Json.normal_nat hfailed _, rfl⟩, ⟨Json.normal_nat hpassed _, rfl⟩,
      ⟨Json.normal_nat hskipped _, rfl⟩, ⟨Json.normal_nat htotal _, rfl⟩, List.forall_mem_nil _⟩

/-- No count of a summary is greater than the number of cases. -/
theorem summary_lt {run : Run} {bound : Nat} (h : run.cases.length < bound) :
    run.summary.total < bound ∧ run.summary.passed < bound ∧ run.summary.failed < bound ∧
      run.summary.skipped < bound := by
  have hcount : ∀ {count : Summary → Nat} {p : Verdict → Bool}, Summary.Tallies count p →
      count run.summary < bound := by
    intro count p htallies
    rw [htallies.summary_run]
    exact Nat.lt_of_le_of_lt List.countP_le_length h
  exact ⟨hcount Summary.tallies_total, hcount Summary.tallies_passed,
    hcount Summary.tallies_failed, hcount Summary.tallies_skipped⟩

/-! ## Entries of cases -/

variable (clock : Nat → String)

/-- What does not depend on the time of an entry is told of the cases alone. -/
theorem map_caseEntries {α : Type} {f : LogEntry → α} {g : CaseRun → α}
    (h : ∀ timestamp case, f (caseEntry timestamp case) = g case) (run : Run) :
    (run.caseEntries clock).map f = run.cases.map g := by
  refine List.ext_getElem (by simp [caseEntries]) ?_
  intro k hk hcase
  simp [caseEntries, h]

theorem exists_of_mem_caseEntries {run : Run} {entry : LogEntry}
    (h : entry ∈ run.caseEntries clock) :
    ∃ case ∈ run.cases, ∃ timestamp, entry = caseEntry timestamp case := by
  rcases List.mem_mapIdx.mp h with ⟨k, hk, rfl⟩
  exact ⟨_, List.getElem_mem hk, _, rfl⟩

theorem length_caseEntries (run : Run) : (run.caseEntries clock).length = run.cases.length :=
  List.length_mapIdx

theorem timestamps_caseEntries (run : Run) :
    (run.caseEntries clock).map LogEntry.timestamp =
      (List.range' 1 run.cases.length).map clock := by
  refine List.ext_getElem (by simp [caseEntries]) ?_
  intro k hk hrange
  simp [caseEntries, caseEntry, LogEntry.withCase, Nat.add_comm]

/-! ## Numbering -/

theorem bareEntries_traceId (run : Run) {entry : LogEntry}
    (h : entry ∈ run.bareEntries clock subjectName plan) : entry.traceId = "" := by
  simp only [bareEntries, List.mem_append, List.mem_cons] at h
  rcases h with (rfl | hcase) | hend
  · rfl
  · rcases exists_of_mem_caseEntries clock hcase with ⟨case, _, timestamp, rfl⟩
    rfl
  · split at hend
    · cases hend
    · rw [List.mem_singleton.mp hend]
      rfl

theorem log_eq_numbered (run : Run) (runId : String) : run.log runId clock subjectName plan =
    Emitter.numbered runId 0 (run.bareEntries clock subjectName plan) :=
  Emitter.emitAll_eq_numbered { runId } fun _ h => run.bareEntries_traceId subjectName clock h

/-! ## Completed runs -/

/-- The log of a run that went on as far as it was meant to, with the readings of the clock. -/
structure WellLogged (plan : TestPlan) (runId : String) (clock : Nat → String) (run : Run)
    (log : List LogEntry) : Prop where
  completed : run.error? = none
  entries : ∃ first results last, log = first :: (results ++ [last]) ∧
    first.event = "run_start" ∧ last.event = "run_end" ∧
    last.outcome = some (if run.cases.any fun case => case.record.verdict.failed then .fail
      else .pass) ∧
    results.length = run.cases.length ∧
    results.map (fun entry => (entry.event, entry.type, entry.format, entry.value)) =
      (plan.coordinates.take run.cases.length).map fun (type, format, v) =>
        ("case_result", some type, some format, some v.repr)
  traceIds : log.map LogEntry.traceId =
    (List.range' 1 (run.cases.length + 2)).map (Emitter.traceId runId)
  distinct : (log.map LogEntry.traceId).Nodup
  timestamps : log.map LogEntry.timestamp = (List.range (run.cases.length + 2)).map clock
  valid : Log.validateFile (Session.logText log) = ⟨run.cases.length + 2, []⟩
  /-- The lines of the text are read, one by one, as the entries. -/
  lines : (Text.lines (Session.logText log).toList).map
      (fun line => Log.validateLine (String.ofList line)) = log.map Except.ok

theorem outcome_endEntry (run : Run) :
    (endEntry timestamp run.summary).outcome =
      some (if run.cases.any fun case => case.record.verdict.failed then .fail else .pass) := by
  have hfailed := Summary.tallies_failed.summary_run run
  unfold endEntry Summary.allPassed
  cases hany : run.cases.any fun case => case.record.verdict.failed with
  | true =>
      have hpos : 0 < run.summary.failed := by
        rw [hfailed]
        exact List.countP_pos_iff.mpr (List.any_eq_true.mp hany)
      simp [Nat.ne_of_gt hpos]
  | false =>
      have hzero : run.summary.failed = 0 := by
        rw [hfailed]
        exact List.countP_eq_zero.mpr (by simpa using hany)
      simp [hzero]

/-- The entries of cases are about the first cases of the plan. -/
theorem coordinates_caseEntries {table : CaseTable} (htable : table.IsOf subject config plan) :
    ((ofPlan subject config plan).caseEntries clock).map
        (fun entry => (entry.event, entry.type, entry.format, entry.value)) =
      (plan.coordinates.take (ofPlan subject config plan).cases.length).map
        fun (type, format, v) => ("case_result", some type, some format, some v.repr) := by
  rw [map_caseEntries clock (g := fun case =>
    ("case_result", some case.record.type, some case.record.format, some case.record.value))
    fun _ _ => rfl]
  -- The number of cases is named, as the cases themselves are about to be replaced.
  obtain ⟨n, hn⟩ : ∃ n, n = (ofPlan subject config plan).cases.length := ⟨_, rfl⟩
  have hcases := cases_eq_take htable
  rw [← hn] at hcases ⊢
  rw [hcases, List.map_map]
  refine List.map_congr_left ?_
  rintro ⟨type, format, v⟩ hmem
  have hexecute := htable.execute_eq (List.mem_of_mem_take hmem)
  rcases CaseRun.coordinates_of_execute hexecute with ⟨htype, hformat, hvalue⟩
  simp [htype, hformat, hvalue]

theorem error?_ofPlan {table : CaseTable} (htable : table.IsOf subject config plan) :
    (ofPlan subject config plan).error? = none := by
  rw [ofPlan_eq htable, error?]
  cases (table.planSteps plan).any config.stopsAt <;> rfl

theorem bareEntries_of_completed {run : Run} (h : run.error? = none) :
    run.bareEntries clock subjectName plan =
      startEntry (clock 0) subjectName plan ::
        (run.caseEntries clock ++ [endEntry (clock (run.cases.length + 1)) run.summary]) := by
  rw [bareEntries, h]
  rfl

/-- Entry by entry, a completed run reads the clock once. -/
theorem timestamps_of_completed {run : Run} (h : run.error? = none) :
    (run.bareEntries clock subjectName plan).map LogEntry.timestamp =
      (List.range (run.cases.length + 2)).map clock := by
  have hrange : List.range (run.cases.length + 2) =
      0 :: (List.range' 1 run.cases.length ++ [run.cases.length + 1]) := by
    rw [List.range_eq_range', List.range'_succ, List.range'_concat, Nat.one_mul, Nat.add_comm 1]
  rw [bareEntries_of_completed subjectName clock h, hrange]
  simp only [List.map_cons, List.map_append, List.map_nil, timestamps_caseEntries]
  rfl

/-- A completed run is well logged if its entries have room for its numbers and are about the cases
of the plan. -/
theorem wellLogged_of_completed {run : Run} (hcompleted : run.error? = none)
    (hnumberable : ∀ bare ∈ run.bareEntries clock subjectName plan, bare.Numberable)
    (hcases : (run.caseEntries clock).map
        (fun entry => (entry.event, entry.type, entry.format, entry.value)) =
      (plan.coordinates.take run.cases.length).map
        fun (type, format, v) => ("case_result", some type, some format, some v.repr))
    (runId : String) :
    run.WellLogged plan runId clock (run.log runId clock subjectName plan) := by
  have hlog : run.log runId clock subjectName plan =
      Emitter.numbered runId 0 (run.bareEntries clock subjectName plan) :=
    run.log_eq_numbered subjectName clock runId
  have hbare : run.bareEntries clock subjectName plan =
      startEntry (clock 0) subjectName plan ::
        (run.caseEntries clock ++ [endEntry (clock (run.cases.length + 1)) run.summary]) :=
    bareEntries_of_completed subjectName clock hcompleted
  have hlength : (run.bareEntries clock subjectName plan).length = run.cases.length + 2 := by
    rw [hbare]
    simp [length_caseEntries]
  -- An emitter that has issued none gives the entries the numbers from one on.
  have hids : (run.log runId clock subjectName plan).map LogEntry.traceId =
      (List.range' 1 (run.cases.length + 2)).map (Emitter.traceId runId) := by
    rw [hlog, Emitter.traceIds_numbered, hlength]
  have hread : ∀ entry ∈ run.log runId clock subjectName plan,
      entry.Valid ∧ entry.DetailsPlain := by
    intro entry hentry
    rw [hlog] at hentry
    rcases Emitter.exists_of_mem_numbered runId 0 _ hentry with ⟨bare, hmem, number, rfl⟩
    have hbareRead := hnumberable bare hmem runId number
    exact ⟨hbareRead.1, ⟨hbareRead.2.normal, hbareRead.2.floats⟩⟩
  have hvalid : ∀ entry ∈ run.log runId clock subjectName plan,
      entry.Valid ∧ entry.DetailsLegible := fun entry hentry =>
    (hread entry hentry).imp_right LogEntry.DetailsPlain.legible
  have hloglength : (run.log runId clock subjectName plan).length = run.cases.length + 2 := by
    simpa using congrArg List.length hids
  have hentries : run.log runId clock subjectName plan =
      { startEntry (clock 0) subjectName plan with traceId := Emitter.traceId runId 1 } ::
        (Emitter.numbered runId 1 (run.caseEntries clock)
          ++ [{ endEntry (clock (run.cases.length + 1)) run.summary with
                traceId := Emitter.traceId runId (run.cases.length + 2) }]) := by
    have hlast : 0 + 1 + (run.caseEntries clock).length + 1 = run.cases.length + 2 := by
      rw [length_caseEntries]
      omega
    rw [hlog, hbare, Emitter.numbered, Emitter.numbered_append, Emitter.numbered,
      Emitter.numbered, hlast]
  exact
    { completed := hcompleted
      entries := by
        refine ⟨_, _, _, hentries, rfl, rfl,
          outcome_endEntry (clock (run.cases.length + 1)) run, ?_, ?_⟩
        · have hmap := Emitter.traceIds_numbered runId 1 (run.caseEntries clock)
          simpa [length_caseEntries] using congrArg List.length hmap
        · rw [Emitter.map_numbered runId 1 _ fun _ _ => rfl]
          exact hcases
      traceIds := hids
      distinct := by
        rw [hlog]
        exact Emitter.nodup_traceIds_numbered runId 0 _
      timestamps := by
        rw [hlog, Emitter.map_numbered runId 0 _ fun _ _ => rfl]
        exact timestamps_of_completed subjectName clock hcompleted
      valid := by rw [Log.validateFile_logText hvalid, hloglength]
      lines := Log.map_validateLine_logText hvalid fun entry hentry =>
        LogEntry.canonical_eq_of_normal (hread entry hentry).2.normal }

/-- The log of every run of a plan whose values have literals is well formed. That the number of
cases is one of 64 bits is what a machine can count. -/
theorem wellLogged_ofPlan (config : Config) (hplan : plan.Encodable)
    (hsize : plan.totalCases < 2 ^ 64) (hsubject : subject.HasExitCodes) (runId : String) :
    (ofPlan subject config plan).WellLogged plan runId clock
      ((ofPlan subject config plan).log runId clock subjectName plan) := by
  rcases hplan.exists_table subject config with ⟨table, htable⟩
  have hcompleted := error?_ofPlan htable
  refine wellLogged_of_completed subjectName clock hcompleted ?_
    (coordinates_caseEntries clock htable) runId
  -- The counts of the last entry are at most the number of cases, and this is at most the plan's.
  have hcases : (ofPlan subject config plan).cases.length < 2 ^ 64 := by
    have hle := length_cases_le htable
    rw [TestPlan.length_coordinates] at hle
    exact Nat.lt_of_le_of_lt hle hsize
  intro bare hmem
  rw [bareEntries_of_completed subjectName clock hcompleted, List.mem_cons, List.mem_append,
    List.mem_singleton] at hmem
  rcases hmem with rfl | hcase | rfl
  · exact numberable_startEntry _ subjectName hsize
  · rcases exists_of_mem_caseEntries clock hcase with ⟨case, hmem, timestamp, rfl⟩
    rcases planned_of_mem_cases hmem with ⟨group, _, format, _, v, _, hexecute⟩
    exact numberable_caseEntry timestamp (CaseRun.exitCode_of_execute hexecute hsubject)
  · exact numberable_endEntry _ (summary_lt hcases)

/-- A value with a quote, a line feed and a control character. -/
def unrulyPlan : TestPlan := ⟨[⟨.string, [.str "say \"no\"\n\x01"], ["{}", "{:+}"]⟩]⟩

/-- A subject that fails with a message that needs every kind of escape. -/
def unrulySubject : Subject := fun _ _ _ =>
  .ok { status := .exited 3, stdout := "", stderr := "\\\t\r\n\x00\x1f", microseconds := 0 }

theorem wellLogged_ofPlan_unrulyPlan :
    unrulyPlan.Encodable ∧ unrulyPlan.totalCases < 2 ^ 64 ∧ unrulySubject.HasExitCodes ∧
      (ofPlan unrulySubject {} unrulyPlan).WellLogged unrulyPlan "run"
        (fun n => Timestamp.utc ⟨n, 0⟩)
        ((ofPlan unrulySubject {} unrulyPlan).log "run" (fun n => Timestamp.utc ⟨n, 0⟩) "./subject"
          unrulyPlan) ∧
      (ofPlan unrulySubject {} unrulyPlan).cases.map CaseRun.outcome = [.error, .skip] := by
  have hplan : unrulyPlan.Encodable := by
    intro group hgroup v hv
    fin_cases hgroup
    fin_cases hv
    exact ⟨_, rfl⟩
  have hsize : unrulyPlan.totalCases < 2 ^ 64 := by decide
  have hsubject : unrulySubject.HasExitCodes := by
    intro format tag literal output houtput code hcode
    cases houtput
    cases hcode
    decide
  exact ⟨hplan, hsize, hsubject,
    wellLogged_ofPlan "./subject" (fun n => Timestamp.utc ⟨n, 0⟩) {} hplan hsize hsubject "run",
    by decide +kernel⟩

end Run
end FormatCheck
