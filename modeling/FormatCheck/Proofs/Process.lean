import FormatCheck.Process

/-!
# Bounded waits

A bound on the wait can only turn what is seen of a process into a timeout: an observation that is
none is the observation without a bound, and a longer wait sees the same. No observation takes
longer than the bound and the grace for the streams.
-/

namespace FormatCheck
namespace Process

variable {p : Process} {limit : Nat}

/-- The process ends before the limit, and its streams before they are given up. -/
structure InTime (p : Process) (limit : Nat) : Prop where
  ended : p.ending ≠ .running ∧ p.time < limit
  stdout : p.released .stdout none ≤ max limit (p.time + grace)
  stderr : p.released .stderr none ≤ max limit (p.time + grace)

theorem InTime.mono (h : p.InTime limit) {longer : Nat} (hle : limit ≤ longer) :
    p.InTime longer := by
  have hdeadline : max limit (p.time + grace) ≤ max longer (p.time + grace) := by omega
  exact
    { ended := ⟨h.ended.1, Nat.lt_of_lt_of_le h.ended.2 hle⟩
      stdout := Nat.le_trans h.stdout hdeadline
      stderr := Nat.le_trans h.stderr hdeadline }

theorem observe_of_inTime (h : p.InTime limit) : p.observe (some limit) = p.observe none := by
  -- The streams are given up after their ends, so the end of the observation is theirs.
  have hreleased : max (p.released .stdout none) (p.released .stderr none) ≤
      max limit (p.time + grace) := Nat.max_le.mpr ⟨h.stdout, h.stderr⟩
  simp only [observe, observeFor, observeFully, h.ended, h.stdout, h.stderr, decide_true, if_true,
    ne_eq, not_false_eq_true, and_self, Nat.min_eq_left hreleased]

theorem inTime_of_status_ne_timedOut (h : (p.observe (some limit)).status ≠ .timedOut) :
    p.InTime limit := by
  by_cases hended : p.ending ≠ .running ∧ p.time < limit
  · simp only [observe, observeFor, output, if_pos hended] at h
    split at h
    · next hcomplete =>
        exact ⟨hended, of_decide_eq_true hcomplete.2.1, of_decide_eq_true hcomplete.2.2⟩
    · exact absurd rfl h
  · simp [observe, observeFor, output, hended] at h

/-- What a bounded wait sees, unless it is a timeout, is what a wait without a bound sees. -/
theorem observe_of_status_ne_timedOut (h : (p.observe (some limit)).status ≠ .timedOut) :
    p.observe (some limit) = p.observe none :=
  observe_of_inTime (inTime_of_status_ne_timedOut h)

/-- A longer wait sees the same, unless the shorter one is a timeout. -/
theorem observe_of_le {longer : Nat} (hle : limit ≤ longer)
    (h : (p.observe (some limit)).status ≠ .timedOut) :
    p.observe (some longer) = p.observe (some limit) := by
  have hinTime := inTime_of_status_ne_timedOut h
  rw [observe_of_inTime hinTime, observe_of_inTime (hinTime.mono hle)]

/-- A bounded wait is over when the streams are given up. -/
theorem milliseconds_observe_le (p : Process) (limit : Nat) :
    (p.observe (some limit)).milliseconds ≤ limit + grace := by
  simp only [observe, observeFor, output, SubjectOutput.milliseconds]
  rw [Nat.mul_div_cancel _ (by decide)]
  split
  · next hended => omega
  · omega

/-- A process that ends at once and leaves its output to a program that holds it for two seconds. -/
example :
    let p : Process := { ending := .exited 0, holders := [⟨0, 2000, {}⟩] }
    (p.observe (some 1000)).status = .timedOut ∧ (p.observe (some 3000)).status = .exited 0 := by
  decide

end Process
end FormatCheck
