import FormatCheck.Summary

/-!
# Counts and rows of summaries

Each of the counters of a summary counts the recorded verdicts of one kind, which is what `Tallies`
says of a counter. The rows are those of the types that came up, in the order in which they first
did.
-/

namespace FormatCheck

theorem countP_add_countP {α : Type} {p q r : α → Bool} {l : List α}
    (h : ∀ a ∈ l, (p a).toNat + (q a).toNat = (r a).toNat) :
    l.countP p + l.countP q = l.countP r := by
  induction l with
  | nil =>
      rfl
  | cons a l ih =>
      have ha := h a List.mem_cons_self
      have hrest := ih fun b hb => h b (List.mem_cons_of_mem a hb)
      rw [List.countP_cons, List.countP_cons, List.countP_cons, ← hrest]
      cases hp : p a <;> cases hq : q a <;> cases hr : r a <;> simp_all <;> omega

namespace Verdict

/-- A verdict is a pass, a skip or a failure, and no two of them. -/
theorem kind_cases (v : Verdict) :
    (v.passed = true ∧ v.skipped = false ∧ v.failed = false) ∨
      (v.passed = false ∧ v.skipped = true ∧ v.failed = false) ∨
        (v.passed = false ∧ v.skipped = false ∧ v.failed = true) := by
  cases v <;> decide

end Verdict

namespace Summary

/-! ## Counters -/

/-- A counter of the recorded verdicts with a property. -/
structure Tallies (count : Summary → Nat) (p : Verdict → Bool) : Prop where
  empty : count {} = 0
  touch : ∀ summary type, count (touch summary type) = count summary
  record : ∀ summary r, count (record summary r) = count summary + if p r.verdict then 1 else 0
  aborted : ∀ summary b, count { summary with aborted := b } = count summary

/-- What recording a case changes. -/
structure Recorded (summary : Summary) (r : CaseRecord) (result : Summary) : Prop where
  total : result.total = summary.total + 1
  passed : result.passed = summary.passed + if r.verdict.passed then 1 else 0
  skipped : result.skipped = summary.skipped + if r.verdict.skipped then 1 else 0
  failed : result.failed = summary.failed + if r.verdict.failed then 1 else 0
  types : result.types = updateType r.type (·.record r.verdict) summary.types
  aborted : result.aborted = summary.aborted

theorem recorded_record (summary : Summary) (r : CaseRecord) :
    Recorded summary r (summary.record r) := by
  rcases r.verdict.kind_cases with ⟨hp, hs, hf⟩ | ⟨hp, hs, hf⟩ | ⟨hp, hs, hf⟩
  · constructor <;> simp [record, hp, hs, hf]
  · constructor <;> simp [record, hp, hs, hf]
  · -- A failure is counted whether there is room for it or not.
    by_cases hroom : summary.failures.length < retainedFailures
    · constructor <;> simp [record, addFailure, hp, hs, hf, hroom]
    · constructor <;> simp [record, addFailure, hp, hs, hf, hroom]

theorem tallies_total : Tallies total fun _ => true where
  empty := rfl
  touch _ _ := rfl
  record summary r := (recorded_record summary r).total
  aborted _ _ := rfl

theorem tallies_passed : Tallies passed Verdict.passed where
  empty := rfl
  touch _ _ := rfl
  record summary r := (recorded_record summary r).passed
  aborted _ _ := rfl

theorem tallies_skipped : Tallies skipped Verdict.skipped where
  empty := rfl
  touch _ _ := rfl
  record summary r := (recorded_record summary r).skipped
  aborted _ _ := rfl

theorem tallies_failed : Tallies failed Verdict.failed where
  empty := rfl
  touch _ _ := rfl
  record summary r := (recorded_record summary r).failed
  aborted _ _ := rfl

/-! ## Rows -/

/-- The types that have a row, in the order of the rows. -/
def rowTypes (summary : Summary) : List SemanticType := summary.types.map TypeCounts.type

/-- A type that has no row gets one at the end. -/
def withRow (type : SemanticType) (rows : List SemanticType) : List SemanticType :=
  if type ∈ rows then rows else rows ++ [type]

theorem withRow_of_mem {type : SemanticType} {rows : List SemanticType} (h : type ∈ rows) :
    withRow type rows = rows := if_pos h

theorem mem_withRow (type : SemanticType) (rows : List SemanticType) : type ∈ withRow type rows := by
  by_cases h : type ∈ rows
  · rw [withRow_of_mem h]
    exact h
  · simp [withRow, h]

/-- A type that comes up after others gets a row unless one of them is the same. -/
theorem withRow_eraseDups (type : SemanticType) (types : List SemanticType) :
    withRow type types.eraseDups = (types ++ [type]).eraseDups := by
  rw [List.eraseDups_append]
  by_cases h : type ∈ types
  · simp [withRow, List.removeAll, h]
  · simp [withRow, List.removeAll, List.eraseDups_cons, h]

theorem map_type_updateType {f : TypeCounts → TypeCounts} (hf : ∀ counts, (f counts).type = counts.type)
    (type : SemanticType) (rows : List TypeCounts) :
    (updateType type f rows).map TypeCounts.type = withRow type (rows.map TypeCounts.type) := by
  induction rows with
  | nil =>
      simp [updateType, withRow, hf]
  | cons counts rows ih =>
      by_cases htype : counts.type = type
      · simp [updateType, withRow, htype, hf]
      · have hne : ¬ type = counts.type := fun h => htype h.symm
        by_cases hmem : type ∈ rows.map TypeCounts.type
        · simp_all [updateType, withRow]
        · simp_all [updateType, withRow]

@[simp] theorem type_record (counts : TypeCounts) (verdict : Verdict) :
    (counts.record verdict).type = counts.type := by
  unfold TypeCounts.record
  split
  · rfl
  · split
    · rfl
    · rfl

theorem rowTypes_touch (summary : Summary) (type : SemanticType) :
    (summary.touch type).rowTypes = withRow type summary.rowTypes :=
  map_type_updateType (fun _ => rfl) type summary.types

theorem rowTypes_record (summary : Summary) (r : CaseRecord) :
    (summary.record r).rowTypes = withRow r.type summary.rowTypes := by
  rw [rowTypes, (recorded_record summary r).types]
  exact map_type_updateType (fun counts => type_record counts r.verdict) r.type summary.types

end Summary
end FormatCheck
