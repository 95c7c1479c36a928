import FormatCheck.Proofs.Json.Steps
import FormatCheck.Proofs.Log.Accepted
import FormatCheck.Proofs.Log.File

/-!
# Entries read back

An entry that passes for one of a run is written as a line that the validator reads as the same
entry, whatever characters its texts hold and whichever of its members are absent. The details may
be any JSON value that is read back where it is written as a member. They come last in the line, so
the reader takes the members before them, and from there on the same text as it would alone.
-/

namespace FormatCheck

/-! ## Details -/

namespace LogEntry

/-- The details of an entry are the last of its members. -/
theorem members_of_details {entry : LogEntry} {j : Json} (h : entry.details = some j) :
    entry.members = members { entry with details := none } ++ [("details", j)] := by
  simp [members, h, optionalMember]

/-- Details found before what holds the rest of an entry make up the entry. -/
theorem Holds.of_details {entry : LogEntry} {j : Json} {all front : List (String × Json)}
    (hfront : Holds front { entry with details := none }) (hj : entry.details = some j)
    (hall : ∀ name, all.lookup name = ([("details", j)].lookup name).or (front.lookup name)) :
    Holds all entry := by
  constructor
  · rw [hall, hfront.timestamp]; rfl
  · rw [hall, hfront.traceId]; rfl
  · rw [hall, hfront.level]; rfl
  · rw [hall, hfront.event]; rfl
  · rw [hall, hfront.type]; rfl
  · rw [hall, hfront.format]; rfl
  · rw [hall, hfront.value]; rfl
  · rw [hall, hfront.outcome]; rfl
  · rw [hall, hfront.exitCode]; rfl
  · rw [hall, hfront.durationMs]; rfl
  · rw [hall, hj]; rfl

/-- The details of the entry are read back where they are written as a member. -/
def DetailsReadBack (entry : LogEntry) : Prop :=
  ∀ j ∈ entry.details,
    Json.read? (Json.object [("details", j)]).compact = some (.object [("details", j)])

/-- Details in the form of what is read are read back if their floats are. -/
theorem detailsReadBack_of_normal {entry : LogEntry}
    (h : ∀ j ∈ entry.details, Json.Normal (Json.depthLimit - 1) j)
    (hfloats : ∀ j ∈ entry.details, ∀ x ∈ j.floats,
      Json.read? (Json.number (.float x)).compact = some (.number (.float x))) :
    entry.DetailsReadBack := by
  intro j hj
  have hnormal : Json.Normal Json.depthLimit (.object [("details", j)]) :=
    .object (List.pairwise_singleton _ _) (List.forall_mem_singleton.mpr (h j hj))
  have hlegible : Json.Legible Json.depthLimit (.object [("details", j)]) := by
    refine hnormal.legible fun x hx => Json.legible_float (hfloats j hj x ?_)
    simpa [Json.floats, Json.floatsOfMembers] using hx
  rw [Json.read?_compact hlegible, hnormal.canonical_eq]

theorem exists_holds_of_line {entry : LogEntry} (hbounded : entry.Bounded)
    (hdetails : entry.DetailsReadBack) :
    ∃ members, Json.read? entry.line = some (.object members) ∧ Holds members entry := by
  -- What is written without the details is legible.
  have hbase : Bounded { entry with details := none } :=
    ⟨hbounded.exitCode, hbounded.durationMs⟩
  have hlegible := hbase.legible (by simp [DetailsLegible])
  have hholds := holds_canonical { entry with details := none }
  cases hj : entry.details with
  | none =>
      have hentry : entry = { entry with details := none } := by rw [← hj]
      rw [hentry]
      exact ⟨_, Json.read?_compact hlegible, hholds⟩
  | some j =>
      rcases Json.read?_object_append hlegible.member (by simp) (hdetails j hj)
        with ⟨all, hread, hall⟩
      refine ⟨all, ?_, Holds.of_details hholds hj hall⟩
      rw [line, toJson_eq, members_of_details hj]
      exact hread

end LogEntry

namespace Log

/-- A well-formed entry is written as a line without issues, wherever in a log it stands, and read
back as it was. -/
theorem validateLine_written {entry : LogEntry} (hcolons : [':', ':'] <:+: entry.traceId.toList)
    (hcase : entry.CaseTogether) (hbounded : entry.Bounded) (hnull : entry.details ≠ some .null)
    (hdetails : entry.DetailsReadBack) :
    validateLine entry.line = .ok entry ∧
      ∀ number, lineIssues number entry.line.toList = [] := by
  have hvalid : entry.Valid :=
    { traceId := (hasDoubleColon_iff _).mpr hcolons
      case := hcase
      exitCode := hbounded.exitCode
      durationMs := hbounded.durationMs
      details := hnull }
  rcases LogEntry.exists_holds_of_line hbounded hdetails with ⟨members, hread, hholds⟩
  have hline := validateLine_of_holds hread hholds hvalid
  have htext : validateLine (String.ofList entry.line.toList) = .ok entry := by
    rw [String.ofList_toList]
    exact hline
  exact ⟨hline, lineIssues_of_ok htext⟩

/-- An entry with every member, among them characters that are escaped, the least exit code, the
greatest duration and details with a float in them. -/
def fullEntry : LogEntry where
  timestamp := "2026-01-31T23:59:59.999Z"
  traceId := "a::b::000001"
  level := .error
  event := "\"\\\n\t::é"
  type := some .string
  format := some "\x7b:>5\x7d"
  value := some ""
  outcome := some .timeout
  exitCode := some (-2 ^ 31)
  durationMs := some (2 ^ 64 - 1)
  details := some (.object [("a", .array [.null, .number (.float zeroFloat)]), ("b", .int (-1))])

theorem validateLine_written_fullEntry :
    validateLine fullEntry.line = .ok fullEntry ∧
      ∀ number, lineIssues number fullEntry.line.toList = [] := by
  have hnormal : ∀ j ∈ fullEntry.details, Json.Normal (Json.depthLimit - 1) j := by
    rintro _ ⟨⟩
    have hkeys : "a" < "b" := by decide
    refine .object (List.pairwise_pair.mpr hkeys) (List.forall_mem_cons.mpr ⟨.array ?_, ?_⟩)
    · exact List.forall_mem_cons.mpr ⟨.null _, List.forall_mem_singleton.mpr (.float _ _)⟩
    · exact List.forall_mem_singleton.mpr (.integer _ (by decide) (by decide))
  have hfloats : ∀ j ∈ fullEntry.details, ∀ x ∈ j.floats,
      Json.read? (Json.number (.float x)).compact = some (.number (.float x)) := by
    simp [fullEntry, Json.int, Json.floats, Json.floatsOfItems, Json.floatsOfMembers,
      read?_zeroFloat]
  exact validateLine_written ⟨['a'], "b::000001".toList, rfl⟩ (by decide) ⟨by decide, by decide⟩
    (by simp [fullEntry]) (LogEntry.detailsReadBack_of_normal hnormal hfloats)

end Log
end FormatCheck
