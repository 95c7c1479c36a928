import FormatCheck.Log.Validator
import FormatCheck.Proofs.Json.Canonical

/-!
# Written entries are valid

A well-formed entry is written as a line that the validator reads as the entry, with its details in
canonical form. One whose case is not whole is written as a line with that defect alone. The members
of a line are found by their names whatever their order, so `Holds` says what is found under each
name, and all that the validator does follows from that.
-/

namespace FormatCheck

theorem LogLevel.ofName?_name (level : LogLevel) : ofName? level.name = some level := by
  cases level <;> decide

theorem Outcome.ofName?_name (outcome : Outcome) : ofName? outcome.name = some outcome := by
  cases outcome <;> decide

namespace Log

/-! ## Names

The validator has lists of names of its own. They are the names that an entry is read with. -/

theorem mem_levelNames_iff (name : String) :
    name ∈ levelNames ↔ (LogLevel.ofName? name).isSome := by
  have hnames : levelNames = LogLevel.all.map LogLevel.name := rfl
  simp [hnames, LogLevel.ofName?]

theorem mem_outcomeNames_iff (name : String) :
    name ∈ outcomeNames ↔ (Outcome.ofName? name).isSome := by
  have hnames : outcomeNames = Outcome.all.map Outcome.name := rfl
  simp [hnames, Outcome.ofName?]

theorem name_mem_levelNames (level : LogLevel) : level.name ∈ levelNames := by
  rw [mem_levelNames_iff, LogLevel.ofName?_name]
  rfl

theorem name_mem_outcomeNames (outcome : Outcome) : outcome.name ∈ outcomeNames := by
  rw [mem_outcomeNames_iff, Outcome.ofName?_name]
  rfl

/-! ## Trace ids -/

/-- A trace id is looked at for two colons anywhere in it. -/
theorem hasDoubleColon_iff (s : List Char) :
    hasDoubleColon s = true ↔ [':', ':'] <:+: s := by
  induction s with
  | nil =>
      simp [hasDoubleColon]
  | cons c s ih =>
      rw [List.infix_cons_iff, ← ih]
      cases s with
      | nil =>
          simp [hasDoubleColon]
      | cons d s =>
          by_cases hcolons : c = ':' ∧ d = ':'
          · rcases hcolons with ⟨rfl, rfl⟩
            simp [hasDoubleColon]
          · have hnext : hasDoubleColon (c :: d :: s) = hasDoubleColon (d :: s) := by
              rw [hasDoubleColon]
              rintro t rfl ht
              exact hcolons ⟨rfl, (List.cons.inj ht).1⟩
            have hfront : ¬ [':', ':'] <+: c :: d :: s := by
              simpa [eq_comm] using hcolons
            rw [hnext, or_iff_right hfront]

end Log

namespace LogEntry

/-- The members of an entry in the order in which they are written. -/
def members (entry : LogEntry) : List (String × Json) :=
  [("timestamp", .string entry.timestamp), ("trace_id", .string entry.traceId),
    ("level", .string entry.level.name), ("event", .string entry.event)]
    ++ optionalMember "semantic_type" (fun t : SemanticType => .string t.tag) entry.type
    ++ optionalMember "format_spec" .string entry.format
    ++ optionalMember "value" .string entry.value
    ++ optionalMember "outcome" (fun o : Outcome => .string o.name) entry.outcome
    ++ optionalMember "exit_code" .int entry.exitCode
    ++ optionalMember "duration_ms" .nat entry.durationMs
    ++ optionalMember "details" id entry.details

theorem toJson_eq (entry : LogEntry) : entry.toJson = .object entry.members := rfl

/-- What a reader finds among members that hold an entry. -/
structure Holds (members : List (String × Json)) (entry : LogEntry) : Prop where
  timestamp : members.lookup "timestamp" = some (.string entry.timestamp)
  traceId : members.lookup "trace_id" = some (.string entry.traceId)
  level : members.lookup "level" = some (.string entry.level.name)
  event : members.lookup "event" = some (.string entry.event)
  type : members.lookup "semantic_type" = entry.type.map fun t => .string t.tag
  format : members.lookup "format_spec" = entry.format.map .string
  value : members.lookup "value" = entry.value.map .string
  outcome : members.lookup "outcome" = entry.outcome.map fun o => .string o.name
  exitCode : members.lookup "exit_code" = entry.exitCode.map .int
  durationMs : members.lookup "duration_ms" = entry.durationMs.map .nat
  details : members.lookup "details" = entry.details

/-- The numbers of the entry are such that the reader has room for them. -/
structure Bounded (entry : LogEntry) : Prop where
  exitCode : ∀ code ∈ entry.exitCode, -2 ^ 31 ≤ code ∧ code < 2 ^ 31
  durationMs : ∀ ms ∈ entry.durationMs, ms < 2 ^ 64

/-- The three members of a case are there together or not at all. -/
def CaseTogether (entry : LogEntry) : Prop :=
  (entry.type.isSome ∧ entry.format.isSome ∧ entry.value.isSome) ∨
    (entry.type = none ∧ entry.format = none ∧ entry.value = none)

instance (entry : LogEntry) : Decidable entry.CaseTogether :=
  inferInstanceAs (Decidable (_ ∨ _))

/-- An entry that passes for one of a run, with numbers that the reader has room for. -/
structure Valid (entry : LogEntry) : Prop where
  traceId : Log.hasDoubleColon entry.traceId.toList = true
  case : (entry.type.isSome ∧ entry.format.isSome ∧ entry.value.isSome) ∨
    (entry.type = none ∧ entry.format = none ∧ entry.value = none)
  exitCode : ∀ code ∈ entry.exitCode, -2 ^ 31 ≤ code ∧ code < 2 ^ 31
  durationMs : ∀ ms ∈ entry.durationMs, ms < 2 ^ 64
  details : entry.details ≠ some .null

/-- The details of the entry are read back inside of it. -/
def DetailsLegible (entry : LogEntry) : Prop :=
  ∀ j ∈ entry.details, Json.Legible (Json.depthLimit - 1) j

/-- The entry as it is read back. -/
def canonical (entry : LogEntry) : LogEntry :=
  { entry with details := entry.details.map Json.canonical }

variable {entry : LogEntry} {members : List (String × Json)}

/-- Details in the form of what is read are canonical already. -/
theorem canonical_eq_of_normal (h : ∀ j ∈ entry.details, Json.Normal (Json.depthLimit - 1) j) :
    entry.canonical = entry := by
  cases hj : entry.details with
  | none => rw [canonical, hj, Option.map_none, ← hj]
  | some j => rw [canonical, hj, Option.map_some, (h j hj).canonical_eq, ← hj]

/-! ## Writing -/

theorem lookup_optionalMember {α : Type} (name : String) (f : α → Json) (o : Option α)
    (key : String) :
    (optionalMember name f o).lookup key = if key = name then o.map f else none := by
  cases o with
  | none => simp [optionalMember]
  | some a =>
      rw [optionalMember, Json.lookup_cons]
      rfl

theorem keys_optionalMember {α : Type} (name : String) (f : α → Json) (o : Option α) :
    ((optionalMember name f o).map Prod.fst).Sublist [name] := by
  cases o with
  | none => exact List.nil_sublist _
  | some a => exact List.Sublist.refl _

theorem keys_members (entry : LogEntry) : (entry.members.map Prod.fst).Sublist fieldNames := by
  simp only [members, List.map_append]
  have hfields : fieldNames = ["timestamp", "trace_id", "level", "event"] ++ ["semantic_type"]
      ++ ["format_spec"] ++ ["value"] ++ ["outcome"] ++ ["exit_code"] ++ ["duration_ms"]
      ++ ["details"] := rfl
  rw [hfields]
  repeat' apply List.Sublist.append
  · exact List.Sublist.refl _
  all_goals exact keys_optionalMember _ _ _

theorem holds_members (entry : LogEntry) : Holds entry.members entry := by
  constructor <;>
    simp [members, List.lookup_append, Json.lookup_cons, lookup_optionalMember]

/-- The canonical form of what is written holds the entry with its details in canonical form. -/
theorem holds_canonical (entry : LogEntry) :
    Holds (Json.sortMembers (Json.canonicalMembers entry.members)) entry.canonical := by
  have hnodup : (entry.members.map Prod.fst).Nodup := (keys_members entry).nodup (by decide)
  have hlookup := Json.lookup_canonical hnodup
  have hholds := holds_members entry
  -- Members other than the details are texts and integers, which are canonical already.
  have hscalar : ∀ {α : Type} (f : α → Json) (o : Option α), (∀ a, (f a).canonical = f a) →
      (o.map f).map Json.canonical = o.map f := by
    intro α f o hf
    cases o with
    | none => rfl
    | some a => simp [hf]
  constructor
  · rw [hlookup, hholds.timestamp]; rfl
  · rw [hlookup, hholds.traceId]; rfl
  · rw [hlookup, hholds.level]; rfl
  · rw [hlookup, hholds.event]; rfl
  · rw [hlookup, hholds.type]
    exact hscalar _ _ fun _ => rfl
  · rw [hlookup, hholds.format]
    exact hscalar _ _ fun _ => rfl
  · rw [hlookup, hholds.value]
    exact hscalar _ _ fun _ => rfl
  · rw [hlookup, hholds.outcome]
    exact hscalar _ _ fun _ => rfl
  · rw [hlookup, hholds.exitCode]
    exact hscalar _ _ fun _ => rfl
  · rw [hlookup, hholds.durationMs]
    exact hscalar _ _ fun _ => rfl
  · rw [hlookup, hholds.details]
    rfl

theorem Valid.bounded (h : entry.Valid) : entry.Bounded where
  exitCode := h.exitCode
  durationMs := h.durationMs

theorem Bounded.legible (h : entry.Bounded) (hdetails : entry.DetailsLegible) :
    Json.Legible Json.depthLimit entry.toJson := by
  have hoptional : ∀ {α : Type} (name : String) (f : α → Json) (o : Option α),
      (∀ a ∈ o, Json.Legible (Json.depthLimit - 1) (f a)) →
        ∀ m ∈ optionalMember name f o, Json.Legible (Json.depthLimit - 1) m.2 := by
    intro α name f o hf m hm
    cases o with
    | none => cases hm
    | some a =>
        rw [List.mem_singleton.mp hm]
        exact hf a rfl
  have hstring : ∀ s, Json.Legible (Json.depthLimit - 1) (.string s) := fun s => .string _ s
  have hfirst : ∀ m ∈ [("timestamp", Json.string entry.timestamp),
      ("trace_id", .string entry.traceId), ("level", .string entry.level.name),
      ("event", .string entry.event)], Json.Legible (Json.depthLimit - 1) m.2 := by
    intro m hm
    simp only [List.mem_cons, List.not_mem_nil, or_false] at hm
    rcases hm with rfl | rfl | rfl | rfl <;> exact hstring _
  have hexit : ∀ code ∈ entry.exitCode, Json.Legible (Json.depthLimit - 1) (.int code) := by
    intro code hcode
    have hbounds := h.exitCode code hcode
    exact .number _ (Json.legible_integer (by omega) (by omega))
  have hduration : ∀ ms ∈ entry.durationMs, Json.Legible (Json.depthLimit - 1) (.nat ms) := by
    intro ms hms
    have hbound := h.durationMs ms hms
    exact .number _ (Json.legible_integer (by omega) (by omega))
  -- Nothing but the details nests deeper than the entry itself.
  have hall : ∀ m ∈ entry.members, Json.Legible (Json.depthLimit - 1) m.2 := by
    simp only [members, List.forall_mem_append]
    exact ⟨⟨⟨⟨⟨⟨⟨hfirst, hoptional _ _ _ fun _ _ => hstring _⟩,
      hoptional _ _ _ fun _ _ => hstring _⟩, hoptional _ _ _ fun _ _ => hstring _⟩,
      hoptional _ _ _ fun _ _ => hstring _⟩, hoptional _ _ _ hexit⟩,
      hoptional _ _ _ hduration⟩, hoptional _ _ _ hdetails⟩
  exact .object hall

theorem Valid.canonical (h : entry.Valid) : entry.canonical.Valid where
  traceId := h.traceId
  case := h.case
  exitCode := h.exitCode
  durationMs := h.durationMs
  details := by
    intro hnull
    rcases Option.map_eq_some_iff.mp hnull with ⟨j, hj, hcanonical⟩
    have hj' : j = .null := by
      cases j <;> simp_all [Json.canonical]
    exact h.details (hj.trans (congrArg some hj'))

/-! ## Reading -/

/-- Among the members of an entry with a proper trace id only its case may be amiss. -/
theorem Holds.memberDefects_eq (hholds : Holds members entry)
    (hcolons : Log.hasDoubleColon entry.traceId.toList = true) :
    Log.memberDefects members = if entry.CaseTogether then [] else [.incompleteCase] := by
  have hlevel : Log.failingText members "level" (fun s => Log.levelNames.contains s) = none := by
    simp [Log.failingText, hholds.level, Log.name_mem_levelNames]
  have houtcome : Log.failingText members "outcome" (fun s => Log.outcomeNames.contains s) =
      none := by
    rw [Log.failingText, hholds.outcome]
    cases entry.outcome <;> simp [Log.name_mem_outcomeNames]
  have htraceId : Log.failingText members "trace_id" (fun s => Log.hasDoubleColon s.toList) =
      none := by
    simp [Log.failingText, hholds.traceId, hcolons]
  -- The case is whole if its members are counted as none or as three.
  have hcase : Log.caseFields.countP (fun name => (members.lookup name).isSome) = 0 ∨
      Log.caseFields.countP (fun name => (members.lookup name).isSome) = 3 ↔
        entry.CaseTogether := by
    simp only [Log.caseFields, CaseTogether, List.countP_cons, List.countP_nil, hholds.type,
      hholds.format, hholds.value, Option.isSome_map]
    cases entry.type <;> cases entry.format <;> cases entry.value <;> simp
  have hrequired : Log.requiredFields.filter (fun name => !(members.lookup name).isSome) = [] := by
    simp [Log.requiredFields, hholds.timestamp, hholds.traceId, hholds.level,
      hholds.event]
  simp only [Log.memberDefects, hlevel, houtcome, htraceId, hrequired, hcase]
  simp

/-- An optional member is read back if its values are. -/
theorem optional?_map {α : Type} {read : Json → Option α} {f : α → Json} {o : Option α}
    (h : ∀ a ∈ o, f a ≠ .null ∧ read (f a) = some a) :
    Json.optional? read (o.map f) = some o := by
  cases o with
  | none => rfl
  | some a =>
      rcases h a rfl with ⟨hnull, hread⟩
      rw [Option.map_some, Json.optional?]
      · rw [hread]
        rfl
      · simpa using hnull

theorem Holds.ofJson?_eq (hholds : Holds members entry) (h : entry.Valid) :
    ofJson? (.object members) = some entry := by
  have htype : Json.optional? (fun j => j.alternative?.bind SemanticType.ofTag?)
      (members.lookup "semantic_type") = some entry.type := by
    rw [hholds.type]
    exact optional?_map fun t _ => ⟨by simp, SemanticType.ofTag?_tag t⟩
  have hformat : Json.optional? Json.string? (members.lookup "format_spec") =
      some entry.format := by
    rw [hholds.format]
    exact optional?_map fun s _ => ⟨by simp, rfl⟩
  have hvalue : Json.optional? Json.string? (members.lookup "value") = some entry.value := by
    rw [hholds.value]
    exact optional?_map fun s _ => ⟨by simp, rfl⟩
  have houtcome : Json.optional? (fun j => j.alternative?.bind Outcome.ofName?)
      (members.lookup "outcome") = some entry.outcome := by
    rw [hholds.outcome]
    exact optional?_map fun o _ => ⟨by simp, Outcome.ofName?_name o⟩
  have hexitCode : Json.optional? Json.int32? (members.lookup "exit_code") =
      some entry.exitCode := by
    rw [hholds.exitCode]
    refine optional?_map ?_
    intro code hcode
    have hbounds := h.exitCode code hcode
    have hread : Json.int32? (.int code) = some code := if_pos (by omega)
    exact ⟨by simp [Json.int], hread⟩
  have hduration : Json.optional? Json.unsigned? (members.lookup "duration_ms") =
      some entry.durationMs := by
    rw [hholds.durationMs]
    refine optional?_map ?_
    intro ms hms
    have hbound := h.durationMs ms hms
    have hread : (Json.nat ms).integerIn? 0 (2 ^ 64 - 1) = some (ms : Int) := if_pos (by omega)
    exact ⟨by simp [Json.nat, Json.int], by rw [Json.unsigned?, hread]; rfl⟩
  have hdetails : Json.optional? some (members.lookup "details") = some entry.details := by
    have hread := optional?_map fun j (hj : j ∈ entry.details) =>
      show id j ≠ .null ∧ some (id j) = some j from ⟨fun hnull => h.details (hnull ▸ hj), rfl⟩
    rw [hholds.details]
    simpa using hread
  dsimp only [ofJson?, Json.record?, Option.bind_eq_bind]
  rw [Option.bind_some, hholds.timestamp, hholds.traceId, hholds.level, hholds.event, htype,
    hformat, hvalue, houtcome, hexitCode, hduration, hdetails]
  change (LogLevel.ofName? entry.level.name).bind _ = some entry
  rw [LogLevel.ofName?_name]
  rfl

end LogEntry

namespace Log

/-- A line whose members hold a valid entry is accepted as that entry. -/
theorem validateLine_of_holds {line : String} {members : List (String × Json)} {entry : LogEntry}
    (hread : Json.read? line = some (.object members)) (hholds : LogEntry.Holds members entry)
    (h : entry.Valid) : validateLine line = .ok entry := by
  have hdefects : memberDefects members = [] :=
    (hholds.memberDefects_eq h.traceId).trans (if_pos h.case)
  rw [validateLine, hread]
  simp only [hdefects, hholds.ofJson?_eq h]
  simp

/-- A valid entry is written as a valid line, and read back in canonical form. -/
theorem validateLine_line {entry : LogEntry} (h : entry.Valid) (hdetails : entry.DetailsLegible) :
    validateLine entry.line = .ok entry.canonical := by
  have hread : Json.read? entry.line =
      some (.object (Json.sortMembers (Json.canonicalMembers entry.members))) :=
    Json.read?_compact (h.bounded.legible hdetails)
  exact validateLine_of_holds hread (LogEntry.holds_canonical entry) h.canonical

/-- A case that is not whole is all that the validator can find amiss in a written entry. -/
theorem validateLine_line_of_not_caseTogether {entry : LogEntry}
    (hcolons : hasDoubleColon entry.traceId.toList = true) (hbounded : entry.Bounded)
    (hdetails : entry.DetailsLegible) (hcase : ¬ entry.CaseTogether) :
    validateLine entry.line = .error [.incompleteCase] := by
  have hread : Json.read? entry.line =
      some (.object (Json.sortMembers (Json.canonicalMembers entry.members))) :=
    Json.read?_compact (hbounded.legible hdetails)
  have hdefects : memberDefects (Json.sortMembers (Json.canonicalMembers entry.members)) =
      [.incompleteCase] :=
    ((LogEntry.holds_canonical entry).memberDefects_eq hcolons).trans (if_neg hcase)
  rw [validateLine, hread]
  simp [hdefects]

end Log
end FormatCheck
