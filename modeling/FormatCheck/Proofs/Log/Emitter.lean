import FormatCheck.Log
import FormatCheck.Proofs.Numeral

/-!
# Trace ids

An emitter numbers the entries given to it one by one, and changes nothing else about them. Different
numbers give different trace ids, also when they need more than the six digits they are padded to.
-/

namespace FormatCheck
namespace Emitter

/-- Entries with the trace ids that follow the first `issued` of a run. -/
def numbered (runId : String) (issued : Nat) : List LogEntry → List LogEntry
  | [] => []
  | entry :: entries =>
    { entry with traceId := traceId runId (issued + 1) } :: numbered runId (issued + 1) entries

theorem emit_of_empty {entry : LogEntry} (h : entry.traceId = "") (emitter : Emitter) :
    emitter.emit entry =
      ({ emitter with issued := emitter.issued + 1 },
        { entry with traceId := traceId emitter.runId (emitter.issued + 1) }) := by
  have hempty : entry.traceId.isEmpty = true := by rw [h]; rfl
  rw [emit, if_pos hempty]

theorem emitAll_eq_numbered (emitter : Emitter) {entries : List LogEntry}
    (h : ∀ entry ∈ entries, entry.traceId = "") :
    emitter.emitAll entries = numbered emitter.runId emitter.issued entries := by
  let step (state : Emitter × List LogEntry) (entry : LogEntry) : Emitter × List LogEntry :=
    ((state.1.emit entry).1, (state.1.emit entry).2 :: state.2)
  -- The fold keeps the entries in reverse, with those of before the call at the end.
  have hfold : ∀ (entries : List LogEntry) (emitter : Emitter) (done : List LogEntry),
      (∀ entry ∈ entries, entry.traceId = "") →
        (entries.foldl step (emitter, done)).2.reverse =
          done.reverse ++ numbered emitter.runId emitter.issued entries := by
    intro entries
    induction entries with
    | nil =>
        intro emitter done _
        simp [numbered]
    | cons entry entries ih =>
        intro emitter done hempty
        have hentry := emit_of_empty (hempty entry List.mem_cons_self) emitter
        have hrest := fun e he => hempty e (List.mem_cons_of_mem entry he)
        have hstep : step (emitter, done) entry =
            ({ emitter with issued := emitter.issued + 1 },
              { entry with traceId := traceId emitter.runId (emitter.issued + 1) } :: done) := by
          simp only [step, hentry]
        rw [List.foldl_cons, hstep, ih _ _ hrest]
        simp [numbered]
  exact hfold entries emitter [] h

/-! ## What numbering keeps -/

variable (runId : String) (issued : Nat) (entries : List LogEntry)

theorem traceIds_numbered :
    (numbered runId issued entries).map LogEntry.traceId =
      (List.range' (issued + 1) entries.length).map (traceId runId) := by
  induction entries generalizing issued with
  | nil =>
      rfl
  | cons entry entries ih =>
      rw [numbered, List.map_cons, ih, List.length_cons, List.range'_succ, List.map_cons]

theorem numbered_append (entries more : List LogEntry) :
    numbered runId issued (entries ++ more) =
      numbered runId issued entries ++ numbered runId (issued + entries.length) more := by
  induction entries generalizing issued with
  | nil =>
      rfl
  | cons entry entries ih =>
      have hissued : issued + 1 + entries.length = issued + (entries.length + 1) := by omega
      rw [List.cons_append, numbered, ih, hissued, numbered, List.cons_append, List.length_cons]

/-- What does not depend on the trace id stays as it is. -/
theorem map_numbered {α : Type} {f : LogEntry → α}
    (hf : ∀ (entry : LogEntry) (traceId : String), f { entry with traceId } = f entry) :
    (numbered runId issued entries).map f = entries.map f := by
  induction entries generalizing issued with
  | nil =>
      rfl
  | cons entry entries ih =>
      rw [numbered, List.map_cons, ih, hf, List.map_cons]

theorem exists_of_mem_numbered {entry : LogEntry} (h : entry ∈ numbered runId issued entries) :
    ∃ bare ∈ entries, ∃ number, entry = { bare with traceId := traceId runId number } := by
  induction entries generalizing issued with
  | nil =>
      cases h
  | cons bare entries ih =>
      rcases List.mem_cons.mp h with rfl | hrest
      · exact ⟨bare, List.mem_cons_self, issued + 1, rfl⟩
      · rcases ih (issued + 1) hrest with ⟨found, hmem, number, hentry⟩
        exact ⟨found, List.mem_cons_of_mem bare hmem, number, hentry⟩

/-! ## Different numbers, different trace ids -/

theorem traceId_inj {runId : String} {m n : Nat} (h : traceId runId m = traceId runId n) :
    m = n := by
  have hdigits : Numeral.zeroPad 6 (Numeral.decimal m) = Numeral.zeroPad 6 (Numeral.decimal n) := by
    have htexts := congrArg String.toList h
    simpa [traceId] using htexts
  calc
    m = Numeral.readDecimal (Numeral.zeroPad 6 (Numeral.decimal m)) := by
      rw [Numeral.readDecimal_zeroPad, Numeral.readDecimal_decimal]
    _ = Numeral.readDecimal (Numeral.zeroPad 6 (Numeral.decimal n)) := by rw [hdigits]
    _ = n := by rw [Numeral.readDecimal_zeroPad, Numeral.readDecimal_decimal]

theorem nodup_traceIds_numbered :
    ((numbered runId issued entries).map LogEntry.traceId).Nodup := by
  rw [traceIds_numbered]
  exact List.Pairwise.map _ (fun _ _ hne h => hne (traceId_inj h)) List.nodup_range'

end Emitter
end FormatCheck
