import FormatCheck.Proofs.Summary
import Mathlib.Algebra.GroupWithZero.Nat
import Mathlib.Data.List.Induction

/-!
# The books of a summary

A summary is built entry by entry: a type comes up, or a case is recorded. `Books` says what every
number of a summary means in terms of its entries alone, and `keepsBooks` that it means it after any
entries in any order.

1. The counters count verdicts, which `Tallies` carries over from one entry to all of them.
2. The rows have a closed form (`types_ofEntries`): the types in the order in which they first came
   up, each with the counts of its own cases. The columns add up because every case is in one row.
3. The failures are the first ones that there is room for, and the others are only counted.
-/

namespace FormatCheck

/-- The counts of the cases of a type. -/
def TypeCounts.ofRecords (records : List CaseRecord) (type : SemanticType) : TypeCounts where
  type := type
  total := records.countP fun r => r.type = type
  passed := records.countP fun r => r.type = type && r.verdict.passed
  failed := records.countP fun r => r.type = type && r.verdict.failed
  skipped := records.countP fun r => r.type = type && r.verdict.skipped

namespace Summary

/-! ## Entries -/

/-- What a summary is told. -/
inductive Entry where
  /-- A type comes up, with or without cases to follow. -/
  | touch (type : SemanticType)
  | record (r : CaseRecord)

namespace Entry

def type : Entry → SemanticType
  | touch type => type
  | record r => r.type

def record? : Entry → Option CaseRecord
  | touch _ => none
  | record r => some r

end Entry

def enter (summary : Summary) : Entry → Summary
  | .touch type => summary.touch type
  | .record r => summary.record r

def ofEntries (entries : List Entry) : Summary := entries.foldl enter {}

/-- The cases recorded, in order. -/
def recordsOf (entries : List Entry) : List CaseRecord := entries.filterMap Entry.record?

/-- The types that came up, in the order in which they first did. -/
def typesOf (entries : List Entry) : List SemanticType := (entries.map Entry.type).eraseDups

/-- The failing cases among others. -/
def failuresOf (records : List CaseRecord) : List CaseRecord :=
  records.filter fun r => r.verdict.failed

/-- What a summary says of its entries. -/
structure Books (entries : List Entry) (summary : Summary) : Prop where
  total : summary.total = (recordsOf entries).length
  passed : summary.passed = (recordsOf entries).countP fun r => r.verdict.passed
  failed : summary.failed = (recordsOf entries).countP fun r => r.verdict.failed
  skipped : summary.skipped = (recordsOf entries).countP fun r => r.verdict.skipped
  balance : summary.total = summary.passed + summary.failed + summary.skipped
  /-- One row for each type. -/
  rowTypes : summary.rowTypes = typesOf entries
  nodup : summary.rowTypes.Nodup
  rows : ∀ row ∈ summary.types, row = .ofRecords (recordsOf entries) row.type
  rowBalance : ∀ row ∈ summary.types, row.total = row.passed + row.failed + row.skipped
  totals : (summary.types.map TypeCounts.total).sum = summary.total
  passes : (summary.types.map TypeCounts.passed).sum = summary.passed
  fails : (summary.types.map TypeCounts.failed).sum = summary.failed
  skips : (summary.types.map TypeCounts.skipped).sum = summary.skipped
  failures : summary.failures = ((failuresOf (recordsOf entries)).take 50).map .ofRecord
  cases : summary.failures.map Failure.case = (failuresOf (recordsOf entries)).take 50
  kept : summary.failures.length = min summary.failed 50
  diffs : ∀ failure ∈ summary.failures, failure.diff.isSome ↔ failure.case.verdict = .mismatch
  omitted : summary.omittedFailures = summary.failed - summary.failures.length

/-- The same counts, in all and for every type; the rows may be in another order. -/
structure SameCounts (summary summary' : Summary) : Prop where
  total : summary.total = summary'.total
  passed : summary.passed = summary'.passed
  failed : summary.failed = summary'.failed
  skipped : summary.skipped = summary'.skipped
  types : summary.types.Perm summary'.types

variable {entries : List Entry} {records records' : List CaseRecord} {type : SemanticType}

theorem ofEntries_append (entries : List Entry) (entry : Entry) :
    ofEntries (entries ++ [entry]) = (ofEntries entries).enter entry := by
  rw [ofEntries, List.foldl_append]
  rfl

@[simp] theorem recordsOf_touch (entries : List Entry) (type : SemanticType) :
    recordsOf (entries ++ [.touch type]) = recordsOf entries := by
  simp [recordsOf, Entry.record?]

@[simp] theorem recordsOf_record (entries : List Entry) (r : CaseRecord) :
    recordsOf (entries ++ [.record r]) = recordsOf entries ++ [r] := by
  simp [recordsOf, Entry.record?]

theorem typesOf_append (entries : List Entry) (entry : Entry) :
    typesOf (entries ++ [entry]) = withRow entry.type (typesOf entries) := by
  rw [typesOf, typesOf, withRow_eraseDups, List.map_append]
  rfl

theorem mem_typesOf : type ∈ typesOf entries ↔ ∃ entry ∈ entries, entry.type = type := by
  rw [typesOf, List.mem_eraseDups, List.mem_map]

theorem nodup_withRow {rows : List SemanticType} (h : rows.Nodup) (type : SemanticType) :
    (withRow type rows).Nodup := by
  by_cases hmem : type ∈ rows
  · rw [withRow_of_mem hmem]
    exact h
  · rw [withRow, if_neg hmem, List.nodup_append]
    refine ⟨h, List.pairwise_singleton _ _, ?_⟩
    rintro row hrow _ hlast rfl
    rw [List.mem_singleton.mp hlast] at hrow
    exact hmem hrow

theorem nodup_typesOf (entries : List Entry) : (typesOf entries).Nodup := by
  induction entries using List.reverseRecOn with
  | nil =>
      exact List.nodup_nil
  | append_singleton entries entry ih =>
      rw [typesOf_append]
      exact nodup_withRow ih entry.type

/-- Every case recorded is of a type that came up. -/
theorem type_mem_typesOf {r : CaseRecord} (h : r ∈ recordsOf entries) :
    r.type ∈ typesOf entries := by
  rcases List.mem_filterMap.mp h with ⟨entry, hentry, hrecord⟩
  refine mem_typesOf.mpr ⟨entry, hentry, ?_⟩
  cases entry with
  | touch type => cases hrecord
  | record r' =>
      cases hrecord
      rfl

/-! ## Counters -/

theorem Tallies.ofEntries {count : Summary → Nat} {p : Verdict → Bool} (h : Tallies count p)
    (entries : List Entry) :
    count (ofEntries entries) = (recordsOf entries).countP fun r => p r.verdict := by
  induction entries using List.reverseRecOn with
  | nil =>
      exact h.empty
  | append_singleton entries entry ih =>
      rw [ofEntries_append]
      cases entry with
      | touch type =>
          rw [enter, h.touch, ih, recordsOf_touch]
      | record r =>
          rw [enter, h.record, ih, recordsOf_record, List.countP_append, List.countP_singleton]

/-! ## Rows -/

/-- What a further case does to the counts of a type. -/
theorem ofRecords_append (records : List CaseRecord) (r : CaseRecord) (type : SemanticType) :
    TypeCounts.ofRecords (records ++ [r]) type =
      if type = r.type then (TypeCounts.ofRecords records type).record r.verdict
      else .ofRecords records type := by
  by_cases htype : type = r.type
  · rw [if_pos htype]
    rcases r.verdict.kind_cases with ⟨hp, hs, hf⟩ | ⟨hp, hs, hf⟩ | ⟨hp, hs, hf⟩ <;>
      simp [TypeCounts.ofRecords, TypeCounts.record, htype, hp, hs, hf]
  · have hne : ¬ r.type = type := fun h => htype h.symm
    rw [if_neg htype]
    simp [TypeCounts.ofRecords, hne]

/-- A type of which no case is recorded has an empty row. -/
theorem ofRecords_of_forall_ne (h : ∀ r ∈ records, r.type ≠ type) :
    TypeCounts.ofRecords records type = { type } := by
  have hnone : ∀ p : CaseRecord → Bool, records.countP (fun r => r.type = type && p r) = 0 := by
    intro p
    refine List.countP_eq_zero.mpr ?_
    intro r hr hcount
    simp only [Bool.and_eq_true, decide_eq_true_eq] at hcount
    exact h r hr hcount.1
  have htotal : records.countP (fun r => r.type = type) = 0 := by
    simpa using hnone fun _ => true
  simp only [TypeCounts.ofRecords, hnone, htotal]

/-- Rows that are given type by type, after one of them was changed or added. -/
theorem updateType_map (row row' : SemanticType → TypeCounts) {f : TypeCounts → TypeCounts}
    (htype : ∀ t, (row t).type = t) (hother : ∀ t, t ≠ type → row' t = row t)
    (hrow : row' type = f (row type)) {types : List SemanticType} (hnodup : types.Nodup)
    (hnew : type ∉ types → row type = { type }) :
    updateType type f (types.map row) = (withRow type types).map row' := by
  induction types with
  | nil =>
      have hempty : row type = { type } := hnew List.not_mem_nil
      simp [updateType, withRow, hrow, hempty]
  | cons t types ih =>
      rw [List.nodup_cons] at hnodup
      by_cases ht : t = type
      · subst ht
        -- The row is found here, and no other row is of its type.
        have hrest : types.map row' = types.map row := by
          refine List.map_congr_left ?_
          intro t' ht'
          refine hother t' ?_
          rintro rfl
          exact hnodup.1 ht'
        simp [updateType, withRow, htype, hrow, hrest]
      · have hne : type ≠ t := fun h => ht h.symm
        have hrest := ih hnodup.2 fun hmem => hnew (List.not_mem_cons_of_ne_of_not_mem hne hmem)
        have hwith : withRow type (t :: types) = t :: withRow type types := by
          by_cases hmem : type ∈ types <;> simp [withRow, hmem, hne]
        rw [List.map_cons, updateType, htype, if_neg ht, hrest, hwith, List.map_cons,
          hother t ht]

/-- The rows of a summary: the types as they came up, each with the counts of its cases. -/
theorem types_ofEntries (entries : List Entry) :
    (ofEntries entries).types = (typesOf entries).map (.ofRecords (recordsOf entries)) := by
  induction entries using List.reverseRecOn with
  | nil =>
      rfl
  | append_singleton entries entry ih =>
      have hnodup := nodup_typesOf entries
      have hnew : entry.type ∉ typesOf entries →
          TypeCounts.ofRecords (recordsOf entries) entry.type = { type := entry.type } := by
        intro hmem
        refine ofRecords_of_forall_ne ?_
        intro r hr htype
        exact hmem (htype ▸ type_mem_typesOf hr)
      rw [ofEntries_append, typesOf_append]
      cases entry with
      | touch type =>
          rw [recordsOf_touch, enter, touch, ih]
          exact updateType_map _ _ (fun _ => rfl) (fun _ _ => rfl) rfl hnodup hnew
      | record r =>
          rw [recordsOf_record, enter, (recorded_record _ r).types, ih]
          exact updateType_map _ _ (fun _ => rfl)
            (fun t ht => (ofRecords_append _ r t).trans (if_neg ht))
            ((ofRecords_append _ r r.type).trans (if_pos rfl)) hnodup hnew

/-! ## Columns -/

/-- Cases counted type by type are counted once. -/
theorem sum_countP_type (p : CaseRecord → Bool) {types : List SemanticType} (h : types.Nodup) :
    (types.map fun type => records.countP fun r => r.type = type && p r).sum =
      records.countP fun r => r.type ∈ types && p r := by
  induction types with
  | nil =>
      simp
  | cons type types ih =>
      rw [List.nodup_cons] at h
      rw [List.map_cons, List.sum_cons, ih h.2]
      refine countP_add_countP ?_
      intro r _
      by_cases htype : r.type = type
      · subst htype
        cases p r <;> simp [h.1]
      · simp [htype]

theorem sum_column {column : TypeCounts → Nat} {p : CaseRecord → Bool}
    (h : ∀ type, column (.ofRecords (recordsOf entries) type) =
      (recordsOf entries).countP fun r => r.type = type && p r) :
    ((ofEntries entries).types.map column).sum = (recordsOf entries).countP p := by
  have hcolumn : (ofEntries entries).types.map column =
      (typesOf entries).map fun type =>
        (recordsOf entries).countP fun r => r.type = type && p r := by
    rw [types_ofEntries, List.map_map]
    exact List.map_congr_left fun type _ => h type
  rw [hcolumn, sum_countP_type p (nodup_typesOf entries)]
  refine List.countP_congr ?_
  intro r hr
  simp [type_mem_typesOf hr]

/-- The passes, failures and skips among some cases are all of them. -/
theorem countP_kinds (p : CaseRecord → Bool) (records : List CaseRecord) :
    (records.countP fun r => p r && r.verdict.passed) +
        (records.countP fun r => p r && r.verdict.failed) +
      (records.countP fun r => p r && r.verdict.skipped) = records.countP p := by
  have hsent : (records.countP fun r => p r && r.verdict.passed) +
      (records.countP fun r => p r && r.verdict.failed) =
        records.countP fun r => p r && !r.verdict.skipped := by
    refine countP_add_countP ?_
    intro r _
    rcases r.verdict.kind_cases with ⟨hp, hs, hf⟩ | ⟨hp, hs, hf⟩ | ⟨hp, hs, hf⟩ <;>
      simp [hp, hs, hf]
  rw [hsent]
  refine countP_add_countP ?_
  intro r _
  cases p r <;> cases r.verdict.skipped <;> rfl

/-! ## Failures -/

/-- A further failure is kept if there is room, and counted otherwise. -/
theorem failures_record (summary : Summary) (r : CaseRecord) :
    (summary.record r).failures =
        summary.failures ++ (if r.verdict.failed ∧ summary.failures.length < 50
          then [.ofRecord r] else []) ∧
      (summary.record r).omittedFailures =
        summary.omittedFailures + (if r.verdict.failed ∧ ¬ summary.failures.length < 50
          then 1 else 0) := by
  rcases r.verdict.kind_cases with ⟨hp, hs, hf⟩ | ⟨hp, hs, hf⟩ | ⟨hp, hs, hf⟩
  · simp [record, hp, hf]
  · simp [record, hp, hs, hf]
  · by_cases hroom : summary.failures.length < 50 <;>
      simp [record, addFailure, retainedFailures, hp, hs, hf, hroom]

theorem failures_ofEntries (entries : List Entry) :
    (ofEntries entries).failures = ((failuresOf (recordsOf entries)).take 50).map .ofRecord ∧
      (ofEntries entries).omittedFailures = (failuresOf (recordsOf entries)).length - 50 := by
  induction entries using List.reverseRecOn with
  | nil =>
      exact ⟨rfl, rfl⟩
  | append_singleton entries entry ih =>
      rw [ofEntries_append]
      cases entry with
      | touch type =>
          rw [recordsOf_touch]
          exact ih
      | record r =>
          rcases ih with ⟨hfailures, homitted⟩
          rcases failures_record (ofEntries entries) r with ⟨hkept, hcounted⟩
          have hlength : (ofEntries entries).failures.length =
              min 50 (failuresOf (recordsOf entries)).length := by
            rw [hfailures, List.length_map, List.length_take]
          rw [recordsOf_record, enter, hkept, hcounted, homitted, hlength, hfailures]
          by_cases hf : r.verdict.failed = true
          · have hall : failuresOf (recordsOf entries ++ [r]) =
                failuresOf (recordsOf entries) ++ [r] := by
              simp [failuresOf, hf]
            -- As long as there is room, all failures before are kept.
            by_cases hroom : (failuresOf (recordsOf entries)).length < 50
            · have hmin : min 50 (failuresOf (recordsOf entries)).length < 50 := by omega
              have hfew : (failuresOf (recordsOf entries) ++ [r]).length ≤ 50 := by
                rw [List.length_append, List.length_singleton]
                omega
              rw [hall, List.take_of_length_le hfew, List.take_of_length_le (by omega),
                if_pos ⟨hf, hmin⟩, if_neg fun h => h.2 hmin, List.map_append]
              exact ⟨rfl, by omega⟩
            · have hmin : ¬ min 50 (failuresOf (recordsOf entries)).length < 50 := by omega
              rw [hall, List.take_append_of_le_length (by omega), if_neg fun h => hmin h.2,
                if_pos ⟨hf, hmin⟩, List.append_nil, List.length_append, List.length_singleton]
              exact ⟨rfl, by omega⟩
          · have hall : failuresOf (recordsOf entries ++ [r]) =
                failuresOf (recordsOf entries) := by
              simp [failuresOf, hf]
            rw [hall, if_neg fun h => hf h.1, if_neg fun h => hf h.1, List.append_nil]
            exact ⟨rfl, rfl⟩

theorem isSome_diff_ofRecord (r : CaseRecord) :
    (Failure.ofRecord r).diff.isSome ↔ r.verdict = .mismatch := by
  by_cases h : r.verdict = .mismatch <;> simp [Failure.ofRecord, h]

/-! ## The books -/

theorem books_ofEntries (entries : List Entry) : Books entries (ofEntries entries) := by
  have htotal := tallies_total.ofEntries entries
  have hpassed := tallies_passed.ofEntries entries
  have hfailed := tallies_failed.ofEntries entries
  have hskipped := tallies_skipped.ofEntries entries
  rcases failures_ofEntries entries with ⟨hfailures, homitted⟩
  have hcount : (failuresOf (recordsOf entries)).length = (ofEntries entries).failed := by
    rw [hfailed, failuresOf, List.countP_eq_length_filter]
  have hkept : (ofEntries entries).failures.length = min (ofEntries entries).failed 50 := by
    rw [hfailures, List.length_map, List.length_take, hcount, Nat.min_comm]
  have hrows : ∀ row ∈ (ofEntries entries).types,
      row = .ofRecords (recordsOf entries) row.type := by
    intro row hrow
    rw [types_ofEntries] at hrow
    rcases List.mem_map.mp hrow with ⟨type, _, rfl⟩
    rfl
  have hrowTypes : (ofEntries entries).rowTypes = typesOf entries := by
    rw [rowTypes, types_ofEntries, List.map_map]
    exact List.map_id _
  have htotals : ((ofEntries entries).types.map TypeCounts.total).sum = (ofEntries entries).total := by
    rw [htotal]
    exact sum_column fun type => by simp [TypeCounts.ofRecords]
  have hpasses : ((ofEntries entries).types.map TypeCounts.passed).sum =
      (ofEntries entries).passed := by
    rw [hpassed]
    exact sum_column fun _ => rfl
  have hfails : ((ofEntries entries).types.map TypeCounts.failed).sum =
      (ofEntries entries).failed := by
    rw [hfailed]
    exact sum_column fun _ => rfl
  have hskips : ((ofEntries entries).types.map TypeCounts.skipped).sum =
      (ofEntries entries).skipped := by
    rw [hskipped]
    exact sum_column fun _ => rfl
  have hrowBalance : ∀ row ∈ (ofEntries entries).types,
      row.total = row.passed + row.failed + row.skipped := by
    intro row hrow
    rw [hrows row hrow]
    exact (countP_kinds (fun r => r.type = row.type) (recordsOf entries)).symm
  have hbalance : (ofEntries entries).total = (ofEntries entries).passed +
      (ofEntries entries).failed + (ofEntries entries).skipped := by
    rw [htotal, hpassed, hfailed, hskipped]
    simpa using (countP_kinds (fun _ => true) (recordsOf entries)).symm
  exact
    { total := by simpa using htotal
      passed := hpassed
      failed := hfailed
      skipped := hskipped
      balance := hbalance
      rowTypes := hrowTypes
      nodup := hrowTypes ▸ nodup_typesOf entries
      rows := hrows
      rowBalance := hrowBalance
      totals := htotals
      passes := hpasses
      fails := hfails
      skips := hskips
      failures := hfailures
      cases := by
        rw [hfailures, List.map_map]
        exact List.map_id _
      kept := hkept
      diffs := by
        intro failure hfailure
        rw [hfailures] at hfailure
        rcases List.mem_map.mp hfailure with ⟨r, _, rfl⟩
        exact isSome_diff_ofRecord r
      omitted := by
        rw [homitted, hcount, hkept]
        omega }

/-! ## Order -/

theorem ofEntries_map_record (records : List CaseRecord) :
    ofEntries (records.map .record) = ofRecords records := by
  rw [ofEntries, List.foldl_map]
  rfl

theorem recordsOf_map_record (records : List CaseRecord) :
    recordsOf (records.map .record) = records := by
  rw [recordsOf, List.filterMap_map]
  exact List.filterMap_some

theorem perm_typesOf {entries entries' : List Entry} (h : entries.Perm entries') :
    (typesOf entries).Perm (typesOf entries') := by
  refine (List.perm_ext_iff_of_nodup (nodup_typesOf entries) (nodup_typesOf entries')).mpr ?_
  intro type
  rw [mem_typesOf, mem_typesOf]
  simp only [h.mem_iff]

theorem ofRecords_perm (h : records.Perm records') (type : SemanticType) :
    TypeCounts.ofRecords records type = .ofRecords records' type := by
  simp only [TypeCounts.ofRecords, h.countP_eq]

theorem sameCounts_of_perm (h : records.Perm records') :
    SameCounts (ofRecords records) (ofRecords records') := by
  have hbooks := books_ofEntries (records.map .record)
  have hbooks' := books_ofEntries (records'.map .record)
  have htypes := types_ofEntries (records.map .record)
  have htypes' := types_ofEntries (records'.map .record)
  rw [ofEntries_map_record] at hbooks hbooks' htypes htypes'
  constructor
  · rw [hbooks.total, hbooks'.total, recordsOf_map_record, recordsOf_map_record, h.length_eq]
  · rw [hbooks.passed, hbooks'.passed, recordsOf_map_record, recordsOf_map_record, h.countP_eq]
  · rw [hbooks.failed, hbooks'.failed, recordsOf_map_record, recordsOf_map_record, h.countP_eq]
  · rw [hbooks.skipped, hbooks'.skipped, recordsOf_map_record, recordsOf_map_record, h.countP_eq]
  · rw [htypes, htypes', recordsOf_map_record, recordsOf_map_record,
      funext fun type => ofRecords_perm h type]
    exact (perm_typesOf (h.map Entry.record)).map _

/-- A summary keeps its books whatever it is told and in whatever order. So the counts of some cases,
in all and by type, do not depend on the order in which they are recorded. -/
theorem keepsBooks :
    (∀ entries, Books entries (ofEntries entries)) ∧
      ∀ records records', records.Perm records' →
        SameCounts (ofRecords records) (ofRecords records') :=
  ⟨books_ofEntries, fun _ _ => sameCounts_of_perm⟩

/-- A record of a case with a verdict. -/
def sampleRecord (type : SemanticType) (verdict : Verdict) : CaseRecord :=
  { type, format := "\x7b\x7d", value := "1", verdict, expected := "1", actual := "2"
    exitCode := some 0 }

def sampleRecords : List CaseRecord :=
  [sampleRecord .int32 .mismatch, sampleRecord .string .referenceRejected,
    sampleRecord .string .matched]

/-- Three cases in two orders: the rows change places, and no count changes. -/
theorem keepsBooks_swappedRows :
    sampleRecords.Perm sampleRecords.reverse ∧
      (ofRecords sampleRecords).rowTypes = [.int32, .string] ∧
      (ofRecords sampleRecords.reverse).rowTypes = [.string, .int32] ∧
      SameCounts (ofRecords sampleRecords) (ofRecords sampleRecords.reverse) := by
  have hperm : sampleRecords.Perm sampleRecords.reverse := sampleRecords.reverse_perm.symm
  exact ⟨hperm, by decide, by decide, keepsBooks.2 _ _ hperm⟩

end Summary
end FormatCheck
