import FormatCheck.Proofs.Json.Canonical
import FormatCheck.Proofs.Json.Floats
import FormatCheck.Proofs.Log.Validation

/-!
# Accepted lines

What the validator makes of a line it accepts. The entry has a proper trace id, numbers within
bounds and details as the reader gives them, so it is written again as a line that holds the entry.
Presence is tested on the members of the line, where `null` counts, while the entry has none for it:
a case with some members `null` and others not is let through, and the line written from it is not.
-/

namespace FormatCheck

/-! ## Members read as fields -/

namespace Json

theorem eq_string_of_string? {o : Option Json} {s : String}
    (h : (o.bind fun j => j.string?) = some s) : o = some (.string s) := by
  rcases Option.bind_eq_some_iff.mp h with ⟨j, rfl, hj⟩
  cases j <;> cases hj
  rfl

theorem exists_of_optional? {α : Type} {read : Json → Option α} {o : Option Json} {a : α}
    (h : optional? read o = some (some a)) : ∃ j, o = some j ∧ j ≠ .null ∧ read j = some a := by
  unfold optional? at h
  split at h
  · cases h
  · cases h
  · next j hnull =>
    rcases Option.map_eq_some_iff.mp h with ⟨b, hread, hb⟩
    cases hb
    exact ⟨j, rfl, hnull, hread⟩

/-- What is not `null` is not passed over. -/
theorem isSome_of_optional? {α : Type} {read : Json → Option α} {r : Option α} {j : Json}
    (h : optional? read (some j) = some r) (hj : j ≠ .null) : r.isSome := by
  rw [optional?] at h
  · rcases Option.map_eq_some_iff.mp h with ⟨a, _, rfl⟩
    rfl
  · simpa using hj

theorem bounds_of_integerIn? {least greatest : Int} {j : Json} {z : Int}
    (h : j.integerIn? least greatest = some z) : least ≤ z ∧ z ≤ greatest := by
  unfold integerIn? at h
  split at h
  · split_ifs at h with hbounds
    cases h
    exact hbounds
  · cases h

end Json

namespace LogEntry

variable {members : List (String × Json)} {entry : LogEntry}

/-- Where the fields of an entry are found among members. -/
structure Decoded (members : List (String × Json)) (entry : LogEntry) : Prop where
  timestamp : members.lookup "timestamp" = some (.string entry.timestamp)
  traceId : members.lookup "trace_id" = some (.string entry.traceId)
  level : ∃ j name, members.lookup "level" = some j ∧ j.alternative? = some name ∧
    LogLevel.ofName? name = some entry.level
  event : members.lookup "event" = some (.string entry.event)
  type : Json.optional? (fun j => j.alternative?.bind SemanticType.ofTag?)
    (members.lookup "semantic_type") = some entry.type
  format : Json.optional? Json.string? (members.lookup "format_spec") = some entry.format
  value : Json.optional? Json.string? (members.lookup "value") = some entry.value
  outcome : Json.optional? (fun j => j.alternative?.bind Outcome.ofName?)
    (members.lookup "outcome") = some entry.outcome
  exitCode : Json.optional? Json.int32? (members.lookup "exit_code") = some entry.exitCode
  durationMs : Json.optional? Json.unsigned? (members.lookup "duration_ms") =
    some entry.durationMs
  details : Json.optional? some (members.lookup "details") = some entry.details

theorem decoded_of_ofJson? (h : ofJson? (.object members) = some entry) :
    Decoded members entry := by
  dsimp only [ofJson?, Json.record?, Option.bind_eq_bind] at h
  rw [Option.bind_some] at h
  rcases Option.bind_eq_some_iff.mp h with ⟨timestamp, htimestamp, h⟩
  rcases Option.bind_eq_some_iff.mp h with ⟨traceId, htraceId, h⟩
  rcases Option.bind_eq_some_iff.mp h with ⟨j, hlevel, h⟩
  rcases Option.bind_eq_some_iff.mp h with ⟨name, hname, h⟩
  rcases Option.bind_eq_some_iff.mp h with ⟨level, hofName, h⟩
  rcases Option.bind_eq_some_iff.mp h with ⟨event, hevent, h⟩
  rcases Option.bind_eq_some_iff.mp h with ⟨type, htype, h⟩
  rcases Option.bind_eq_some_iff.mp h with ⟨format, hformat, h⟩
  rcases Option.bind_eq_some_iff.mp h with ⟨value, hvalue, h⟩
  rcases Option.bind_eq_some_iff.mp h with ⟨outcome, houtcome, h⟩
  rcases Option.bind_eq_some_iff.mp h with ⟨exitCode, hexitCode, h⟩
  rcases Option.bind_eq_some_iff.mp h with ⟨durationMs, hdurationMs, h⟩
  rcases Option.bind_eq_some_iff.mp h with ⟨details, hdetails, h⟩
  cases h
  exact
    { timestamp := Json.eq_string_of_string? htimestamp
      traceId := Json.eq_string_of_string? htraceId
      level := ⟨j, name, hlevel, hname, hofName⟩
      event := Json.eq_string_of_string? hevent
      type := htype
      format := hformat
      value := hvalue
      outcome := houtcome
      exitCode := hexitCode
      durationMs := hdurationMs
      details := hdetails }

/-- The numbers that were read are within the bounds of their kinds. -/
theorem Decoded.bounded (h : Decoded members entry) : entry.Bounded where
  exitCode := by
    intro code hcode
    have hread := h.exitCode
    rw [hcode] at hread
    rcases Json.exists_of_optional? hread with ⟨j, _, _, hj⟩
    have hbounds := Json.bounds_of_integerIn? hj
    omega
  durationMs := by
    intro ms hms
    have hread := h.durationMs
    rw [hms] at hread
    rcases Json.exists_of_optional? hread with ⟨j, _, _, hj⟩
    rcases Option.map_eq_some_iff.mp hj with ⟨z, hz, rfl⟩
    have hbounds := Json.bounds_of_integerIn? hz
    omega

theorem Decoded.details_of_mem (h : Decoded members entry) {j : Json} (hj : j ∈ entry.details) :
    members.lookup "details" = some j ∧ j ≠ .null := by
  have hread := h.details
  rw [hj] at hread
  rcases Json.exists_of_optional? hread with ⟨j', hlookup, hnull, heq⟩
  cases heq
  exact ⟨hlookup, hnull⟩

end LogEntry

/-! ## Cases -/

namespace Log

/-- A member is there and is not `null`. -/
def Given (members : List (String × Json)) (name : String) : Prop :=
  ∃ j, members.lookup name = some j ∧ j ≠ .null

/-- Of the members of a case one is `null` and one is not. -/
def SplitCase (members : List (String × Json)) : Prop :=
  (∃ name ∈ caseFields, members.lookup name = some .null) ∧
    ∃ name ∈ caseFields, Given members name

variable {members : List (String × Json)} {entry : LogEntry}

/-- Of an optional member there is a value if it is given. -/
theorem isSome_iff_given {α : Type} {read : Json → Option α} {r : Option α} {name : String}
    (h : Json.optional? read (members.lookup name) = some r) : r.isSome ↔ Given members name := by
  constructor
  · intro hsome
    rcases Option.isSome_iff_exists.mp hsome with ⟨a, rfl⟩
    rcases Json.exists_of_optional? h with ⟨j, hj, hnull, _⟩
    exact ⟨j, hj, hnull⟩
  · rintro ⟨j, hj, hnull⟩
    rw [hj] at h
    exact Json.isSome_of_optional? h hnull

theorem null_iff_not_given {name : String} (h : (members.lookup name).isSome) :
    members.lookup name = some .null ↔ ¬ Given members name := by
  rcases Option.isSome_iff_exists.mp h with ⟨j, hj⟩
  simp [Given, hj]

/-- A case whose members are there together is whole in the entry unless it is split. -/
theorem caseTogether_iff (hentry : LogEntry.Decoded members entry)
    (hcount : caseFields.countP (fun name => (members.lookup name).isSome) = 0 ∨
      caseFields.countP (fun name => (members.lookup name).isSome) = 3) :
    entry.CaseTogether ↔ ¬ SplitCase members := by
  have hwhole : entry.CaseTogether ↔ (∀ name ∈ caseFields, Given members name) ∨
      ∀ name ∈ caseFields, ¬ Given members name := by
    simp [LogEntry.CaseTogether, caseFields, ← isSome_iff_given hentry.type,
      ← isSome_iff_given hentry.format, ← isSome_iff_given hentry.value]
  rw [hwhole]
  rcases hcount with hnone | hall
  · have hnull : ∀ name ∈ caseFields, members.lookup name = none := fun name hname =>
      Option.not_isSome_iff_eq_none.mp (List.countP_eq_zero.mp hnone name hname)
    have hsplit : ¬ SplitCase members := by
      rintro ⟨⟨name, hname, hnull'⟩, _⟩
      simp [hnull name hname] at hnull'
    have hgiven : ∀ name ∈ caseFields, ¬ Given members name := by
      rintro name hname ⟨j, hj, _⟩
      simp [hnull name hname] at hj
    exact iff_of_true (Or.inr hgiven) hsplit
  · have hpresent : ∀ name ∈ caseFields, (members.lookup name).isSome :=
      List.countP_eq_length.mp hall
    have hnull : (∃ name ∈ caseFields, members.lookup name = some .null) ↔
        ∃ name ∈ caseFields, ¬ Given members name :=
      exists_congr fun name => and_congr_right fun hname => null_iff_not_given (hpresent name hname)
    rw [SplitCase, hnull, not_and_or]
    push Not
    rfl

/-! ## Lines -/

/-- What is checked of a line before it is accepted. -/
theorem exists_of_validateLine {line : String} (h : validateLine line = .ok entry) :
    ∃ members, Json.read? line = some (.object members) ∧ memberDefects members = [] ∧
      LogEntry.Decoded members entry := by
  unfold validateLine at h
  split at h
  · cases h
  · next members hread =>
    dsimp only at h
    split_ifs at h with hdefects
    split at h
    · next entry' hentry =>
      cases h
      exact ⟨members, hread, not_not.mp hdefects, LogEntry.decoded_of_ofJson? hentry⟩
    · cases h
  · cases h

theorem of_memberDefects_eq_nil (h : memberDefects members = []) :
    (caseFields.countP (fun name => (members.lookup name).isSome) = 0 ∨
      caseFields.countP (fun name => (members.lookup name).isSome) = 3) ∧
    failingText members "trace_id" (fun s => hasDoubleColon s.toList) = none := by
  simp only [memberDefects, List.append_eq_nil_iff, Option.toList_eq_nil_iff,
    Option.map_eq_none_iff] at h
  rcases h with ⟨⟨_, hcase⟩, htraceId⟩
  refine ⟨?_, htraceId⟩
  by_contra hcount
  rw [if_neg hcount] at hcase
  cases hcase

theorem ok_of_failingText_eq_none {name s : String} {ok : String → Bool}
    (h : failingText members name ok = none) (hs : members.lookup name = some (.string s)) :
    ok s = true := by
  by_contra hfails
  simp [failingText, hs, hfails] at h

/-- The details of an accepted line are as the reader gives them, a level below the line. -/
theorem normal_details {line : String} (hread : Json.read? line = some (.object members))
    (hentry : LogEntry.Decoded members entry) {j : Json} (hj : j ∈ entry.details) :
    Json.Normal (Json.depthLimit - 1) j := by
  rcases List.lookup_eq_some_iff.mp (hentry.details_of_mem hj).1 with ⟨before, after, rfl, _⟩
  exact (Json.normal_of_read? hread).member (List.mem_append_right before List.mem_cons_self)

/-- An accepted line is written again as a line that is accepted as the same entry, unless the case
was split between `null` and other values: then the case is what is found amiss. -/
theorem validateLine_accepted {line : String} (h : validateLine line = .ok entry)
    (hfloats : ∀ j ∈ entry.details, ∀ x ∈ j.floats,
      Json.read? (Json.number (.float x)).compact = some (.number (.float x))) :
    hasDoubleColon entry.traceId.toList = true ∧
      ∃ members, Json.read? line = some (.object members) ∧
        (entry.CaseTogether ↔ ¬ SplitCase members) ∧
        validateLine entry.line =
          if entry.CaseTogether then .ok entry else .error [.incompleteCase] := by
  rcases exists_of_validateLine h with ⟨members, hread, hdefects, hentry⟩
  rcases of_memberDefects_eq_nil hdefects with ⟨hcount, htraceId⟩
  have hcolons := ok_of_failingText_eq_none htraceId hentry.traceId
  refine ⟨hcolons, members, hread, caseTogether_iff hentry hcount, ?_⟩
  have hnormal : ∀ j ∈ entry.details, Json.Normal (Json.depthLimit - 1) j :=
    fun j hj => normal_details hread hentry hj
  have hlegible : entry.DetailsLegible := fun j hj =>
    (hnormal j hj).legible fun x hx => Json.legible_float (hfloats j hj x hx)
  split_ifs with hcase
  · have hvalid : entry.Valid :=
      { traceId := hcolons
        case := hcase
        exitCode := hentry.bounded.exitCode
        durationMs := hentry.bounded.durationMs
        details := fun hnull => (hentry.details_of_mem hnull).2 rfl }
    rw [validateLine_line hvalid hlegible, LogEntry.canonical_eq_of_normal hnormal]
  · exact validateLine_line_of_not_caseTogether hcolons hentry.bounded hlegible hcase

/-! ## Lines with `null` in them -/

/-- The float of `0.0`, which is not the integer of `0`. -/
def zeroFloat : Binary64 := ⟨false, .ofRank 0⟩

theorem read?_zeroFloat :
    Json.read? (Json.number (.float zeroFloat)).compact = some (.number (.float zeroFloat)) := by
  have htext : Json.compactText (.number (.float zeroFloat)) = ['0', '.', '0'] := by decide +kernel
  have hsource : Json.readSource? (String.ofList ['0', '.', '0']) =
      some (.number ⟨false, ['0'], ['0'], none⟩) := by
    rw [Json.readSource?, String.toList_ofList]
    rfl
  have hvalue : Json.NumberSource.value? ⟨false, ['0'], ['0'], none⟩ = some (.float zeroFloat) := by
    decide +kernel
  simp [Json.compact, htext, Json.read?, hsource, Json.Source.value?, Json.Source.valueAt?, hvalue]

/-- Members with a level spelled as an object, a case of `null`s, and details out of key order. -/
def looseMembers (x : Binary64) : List (String × Json) :=
  [("timestamp", .string "t"), ("trace_id", .string "r::1"), ("level", .object [("info", .null)]),
    ("event", .string "e"), ("semantic_type", .null), ("format_spec", .null), ("value", .null),
    ("details", .object [("b", .array [.number (.float x)]), ("a", .int 1)])]

def looseEntry (x : Binary64) : LogEntry where
  timestamp := "t"
  traceId := "r::1"
  level := .info
  event := "e"
  details := some (.object [("a", .int 1), ("b", .array [.number (.float x)])])

theorem validateLine_accepted_looseMembers :
    validateLine (Json.object (looseMembers zeroFloat)).compact = .ok (looseEntry zeroFloat) ∧
      validateLine (looseEntry zeroFloat).line = .ok (looseEntry zeroFloat) := by
  have hfloat : (JsonNumber.float zeroFloat).Legible := Json.legible_float read?_zeroFloat
  have hdetails : Json.Legible (Json.depthLimit - 1)
      (.object [("b", .array [.number (.float zeroFloat)]), ("a", .int 1)]) := by
    refine .object (List.forall_mem_cons.mpr ⟨.array ?_, List.forall_mem_singleton.mpr ?_⟩)
    · exact List.forall_mem_singleton.mpr (.number _ hfloat)
    · exact .number _ (Json.legible_integer (by decide) (by decide))
  have hlevel : Json.Legible (Json.depthLimit - 1) (.object [("info", .null)]) :=
    .object (List.forall_mem_singleton.mpr (.null _))
  have hlegible : Json.Legible Json.depthLimit (.object (looseMembers zeroFloat)) := by
    refine .object ?_
    simp only [looseMembers, List.forall_mem_cons]
    exact ⟨.string _ _, .string _ _, hlevel, .string _ _, .null _, .null _, .null _, hdetails,
      List.forall_mem_nil _⟩
  have hvalid : validateLine (Json.object (looseMembers zeroFloat)).compact =
      .ok (looseEntry zeroFloat) := by
    rw [validateLine, Json.read?_compact hlegible]
    rfl
  have hfloats : ∀ j ∈ (looseEntry zeroFloat).details, ∀ x ∈ j.floats,
      Json.read? (Json.number (.float x)).compact = some (.number (.float x)) := by
    simp [looseEntry, Json.int, Json.floats, Json.floatsOfItems, Json.floatsOfMembers,
      read?_zeroFloat]
  rcases validateLine_accepted hvalid hfloats with ⟨_, members, _, _, hagain⟩
  exact ⟨hvalid, hagain.trans (if_pos (by decide))⟩

/-- Members with a case whose type is `null` and whose format and value are not. -/
def splitMembers : List (String × Json) :=
  [("timestamp", .string "t"), ("trace_id", .string "r::1"), ("level", .string "info"),
    ("event", .string "e"), ("semantic_type", .null), ("format_spec", .string "\x7b\x7d"),
    ("value", .string "x")]

def splitEntry : LogEntry where
  timestamp := "t"
  traceId := "r::1"
  level := .info
  event := "e"
  format := some "\x7b\x7d"
  value := some "x"

/-- An accepted line whose entry has two of the three members of a case, and is not accepted when it
is written again. -/
theorem validateLine_splitMembers :
    validateLine (Json.object splitMembers).compact = .ok splitEntry ∧
      ¬ splitEntry.CaseTogether ∧ validateLine splitEntry.line = .error [.incompleteCase] := by
  have hlegible : Json.Legible Json.depthLimit (.object splitMembers) := by
    refine .object ?_
    simp only [splitMembers, List.forall_mem_cons]
    exact ⟨.string _ _, .string _ _, .string _ _, .string _ _, .null _, .string _ _, .string _ _,
      List.forall_mem_nil _⟩
  have hcase : ¬ splitEntry.CaseTogether := by decide
  refine ⟨?_, hcase, ?_⟩
  · rw [validateLine, Json.read?_compact hlegible]
    rfl
  · exact validateLine_line_of_not_caseTogether (by decide) ⟨by decide, by decide⟩
      (by simp [LogEntry.DetailsLegible, splitEntry]) hcase

end Log
end FormatCheck
