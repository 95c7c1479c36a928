import FormatCheck.Proofs.Numeral
import FormatCheck.Proofs.Numeral.MixedRadix
import FormatCheck.Proofs.Timestamp.Word

/-!
# The order of timestamps

Timestamps are written in the order of time. The numbers of a timestamp, from the year down to the
milliseconds, are lexicographically greater at a later time: the dates because each day's date is
followed by the calendar's next one, the time of day because it is a number in mixed radix. Each
number has a width of its own in the text, so the texts are in the order of the numbers, as long as
the year has four digits.
-/

namespace FormatCheck

/-! ## Lists of one length -/

/-- Of two lists of one length the lesser one comes first whatever follows them. -/
theorem append_lt_append {α : Type} [LT α] {xs ys : List α} (hlength : xs.length = ys.length)
    (h : xs < ys) (s t : List α) : xs ++ s < ys ++ t := by
  induction xs generalizing ys with
  | nil =>
      obtain rfl : ys = [] := List.length_eq_zero_iff.mp hlength.symm
      exact absurd h (List.not_lt_nil _)
  | cons x xs ih =>
      obtain ⟨y, ys, rfl⟩ : ∃ y ys', ys = y :: ys' :=
        List.exists_cons_of_length_eq_add_one hlength.symm
      rw [List.cons_append, List.cons_append, List.cons_lt_cons_iff]
      rcases List.cons_lt_cons_iff.mp h with hlt | ⟨heq, hrest⟩
      · exact Or.inl hlt
      · exact Or.inr ⟨heq, ih (Nat.succ.inj hlength) hrest⟩

/-! ## Dates -/

namespace Date

def fields (date : Date) : List Nat := [date.year, date.month, date.day]

theorem length_fields (date : Date) : date.fields.length = 3 := rfl

theorem fields_lt_next (date : Date) : date.fields < date.next.fields := by
  unfold next fields
  split_ifs <;> simp [List.cons_lt_cons_iff]

/-- Later days have greater dates. -/
theorem fields_ofDays_lt {days days' : Nat} (h : days < days') :
    (ofDays days).fields < (ofDays days').fields := by
  induction h with
  | refl =>
      rw [ofDays_succ]
      exact fields_lt_next _
  | step _ ih =>
      rw [ofDays_succ]
      exact List.lt_trans ih (fields_lt_next _)

theorem year_ofDays_le {days days' : Nat} (h : days ≤ days') :
    (ofDays days).year ≤ (ofDays days').year := by
  rcases Nat.lt_or_eq_of_le h with hlt | rfl
  · rcases List.cons_lt_cons_iff.mp (fields_ofDays_lt hlt) with hyear | ⟨hyear, _⟩
    · exact Nat.le_of_lt hyear
    · exact Nat.le_of_eq hyear
  · exact Nat.le_refl _

theorem daysInMonth_le (year month : Nat) : daysInMonth year month ≤ 31 := by
  unfold daysInMonth
  split_ifs <;> decide

end Date

namespace Timestamp

variable {t t' : Timestamp}

/-! ## Numbers of a timestamp -/

def date (t : Timestamp) : Date := Date.ofDays (t.seconds / secondsPerDay)

/-- The time of day: hours, minutes, seconds and milliseconds. -/
def clock (t : Timestamp) : List Nat :=
  [t.seconds % secondsPerDay / 3600, t.seconds % 3600 / 60, t.seconds % 60, t.milliseconds]

/-- The first timestamp is the earlier one. -/
def IsBefore (t t' : Timestamp) : Prop :=
  t.seconds < t'.seconds ∨ t.seconds = t'.seconds ∧ t.milliseconds < t'.milliseconds

/-- The time of day is the number of milliseconds since midnight in mixed radix. -/
theorem clock_eq_mixedDigits (h : t.milliseconds < 1000) :
    t.clock = Numeral.mixedDigits [24, 60, 60, 1000]
      (t.seconds % secondsPerDay * 1000 + t.milliseconds) := by
  simp only [clock, Numeral.mixedDigits, List.prod_cons, List.prod_nil, secondsPerDay,
    List.cons.injEq, and_true]
  omega

/-- The numbers of a later timestamp are greater. -/
theorem fields_lt (ht : t.milliseconds < 1000) (ht' : t'.milliseconds < 1000)
    (h : t.IsBefore t') : t.date.fields ++ t.clock < t'.date.fields ++ t'.clock := by
  have hdays : t.seconds / secondsPerDay ≤ t'.seconds / secondsPerDay := by
    refine Nat.div_le_div_right ?_
    rcases h with hlt | ⟨heq, _⟩
    · exact Nat.le_of_lt hlt
    · exact Nat.le_of_eq heq
  rcases Nat.lt_or_eq_of_le hdays with hlt | heq
  · have hdate : t.date.fields < t'.date.fields := Date.fields_ofDays_lt hlt
    exact append_lt_append (t.date.length_fields.trans t'.date.length_fields.symm) hdate _ _
  · -- Within a day the time of day decides.
    have hdate : t.date = t'.date := congrArg Date.ofDays heq
    rw [hdate, clock_eq_mixedDigits ht, clock_eq_mixedDigits ht']
    refine List.append_left_lt (Numeral.mixedDigits_lt_mixedDigits ?_ ?_)
    · have hsplit := Nat.div_add_mod t.seconds secondsPerDay
      have hsplit' := Nat.div_add_mod t'.seconds secondsPerDay
      rw [heq] at hsplit
      rcases h with hlt | ⟨hseconds, hlt⟩ <;> omega
    · have hlt : t'.seconds % secondsPerDay < 86400 := Nat.mod_lt _ (by decide)
      change _ < 86400000
      omega

/-! ## Text -/

/-- The widths of the numbers and the mark behind each. -/
def layout : List (Nat × Char) :=
  [(4, '-'), (2, '-'), (2, 'T'), (2, ':'), (2, ':'), (2, '.'), (3, 'Z')]

/-- Numbers in their widths, each with its mark. -/
def layOut : List (Nat × Char) → List Nat → List Char
  | (width, mark) :: places, n :: ns => padded width n ++ mark :: layOut places ns
  | _, _ => []

/-- Every number has room in its place. -/
def FitsIn (places : List (Nat × Char)) (ns : List Nat) : Prop :=
  List.Forall₂ (fun place n => n < 10 ^ place.1) places ns

theorem layOut_layout (t : Timestamp) (date : Date) :
    layOut layout (date.fields ++ t.clock) =
      padded 4 date.year ++ '-' :: padded 2 date.month ++ '-' :: padded 2 date.day
        ++ 'T' :: padded 2 (t.seconds % secondsPerDay / 3600)
        ++ ':' :: padded 2 (t.seconds % 3600 / 60)
        ++ ':' :: padded 2 (t.seconds % 60)
        ++ '.' :: padded 3 t.milliseconds ++ ['Z'] := by
  simp [layOut, layout, clock, Date.fields]

theorem utc_eq (t : Timestamp) :
    t.utc = String.ofList (layOut layout (t.date.fields ++ t.clock)) := by
  rw [layOut_layout, utc, date]

/-- Numbers of one width decide whatever follows them. -/
theorem padded_lt {width m n : Nat} (hmn : m < n) (hn : n < 10 ^ width) (s s' : List Char) :
    padded width m ++ s < padded width n ++ s' := by
  have hwidth := Numeral.width_pos_of_lt hmn hn
  refine append_lt_append ?_ (Numeral.zeroPad_decimal_lt hmn hn) s s'
  exact (Numeral.length_zeroPad_text (by decide) hwidth (Nat.lt_trans hmn hn)).trans
    (Numeral.length_zeroPad_text (by decide) hwidth hn).symm

/-- The texts of numbers that have room are in the order of the numbers. -/
theorem layOut_lt {places : List (Nat × Char)} {ns ns' : List Nat} (hns : FitsIn places ns)
    (hns' : FitsIn places ns') (h : ns < ns') : layOut places ns < layOut places ns' := by
  induction hns generalizing ns' with
  | nil =>
      cases hns'
      exact absurd h (List.not_lt_nil _)
  | @cons place n places ns hn _ ih =>
      cases hns' with
      | @cons _ n' _ ns' hn' hrest =>
          rcases List.cons_lt_cons_iff.mp h with hlt | ⟨rfl, hlt⟩
          · exact padded_lt hlt hn' _ _
          · refine List.append_left_lt ?_
            rw [List.cons_lt_cons_iff]
            exact Or.inr ⟨rfl, ih hrest hlt⟩

/-- Years up to 9999 and whatever comes after the year have room. -/
theorem fitsIn_layout (hms : t.milliseconds < 1000) (hyear : t.date.year < 10000) :
    FitsIn layout (t.date.fields ++ t.clock) := by
  have hdate := Date.isGregorian_ofDays (t.seconds / secondsPerDay)
  have hmonth : t.date.month < 10 ^ 2 := Nat.lt_of_le_of_lt hdate.month_le (by decide)
  have hday : t.date.day < 10 ^ 2 :=
    Nat.lt_of_le_of_lt (Nat.le_trans hdate.day_le (Date.daysInMonth_le _ _)) (by decide)
  have hhour : t.seconds % secondsPerDay / 3600 < 10 ^ 2 := by
    unfold secondsPerDay
    omega
  have hminute : t.seconds % 3600 / 60 < 10 ^ 2 := by omega
  have hsecond : t.seconds % 60 < 10 ^ 2 := by omega
  exact .cons hyear (.cons hmonth (.cons hday (.cons hhour (.cons hminute (.cons hsecond
    (.cons hms .nil))))))

/-- Timestamps are written in the order of time. -/
theorem utc_lt (ht : t.milliseconds < 1000) (ht' : t'.milliseconds < 1000)
    (hyear : t'.date.year < 10000) (h : t.IsBefore t') : t.utc < t'.utc := by
  have hseconds : t.seconds ≤ t'.seconds := by
    rcases h with hlt | ⟨heq, _⟩
    · exact Nat.le_of_lt hlt
    · exact Nat.le_of_eq heq
  have hle : t.date.year ≤ t'.date.year := Date.year_ofDays_le (Nat.div_le_div_right hseconds)
  rw [utc_eq, utc_eq, String.lt_iff, String.toList_ofList, String.toList_ofList]
  exact layOut_lt (fitsIn_layout ht (Nat.lt_of_le_of_lt hle hyear)) (fitsIn_layout ht' hyear)
    (fields_lt ht ht' h)

/-- Timestamps follow the Gregorian calendar: day 0 is January 1, 1970, the date of each next day is
the next date of the calendar, and computing dates never leaves the unsigned 64-bit numbers for any
number of seconds that is one. Up to the year 9999 a later timestamp has a greater text. -/
theorem utc_followsCalendar :
    Date.ofDays 0 = ⟨1970, 1, 1⟩ ∧
      (∀ days, Date.ofDays (days + 1) = (Date.ofDays days).next ∧
        (Date.ofDays days).IsGregorian) ∧
      (∀ seconds < 2 ^ 64, Date.ofDaysWord? (seconds / secondsPerDay) =
        some (Date.ofDays (seconds / secondsPerDay))) ∧
      ∀ t t' : Timestamp, t.milliseconds < 1000 → t'.milliseconds < 1000 →
        t'.date.year < 10000 → t.IsBefore t' → t.utc < t'.utc := by
  refine ⟨Date.ofDays_zero, fun days => ⟨Date.ofDays_succ days, Date.isGregorian_ofDays days⟩, ?_,
    fun _ _ ht ht' hyear h => utc_lt ht ht' hyear h⟩
  intro seconds hseconds
  have hdays : seconds / secondsPerDay + Date.epochDays < 2 ^ 64 := by
    unfold secondsPerDay Date.epochDays
    omega
  rw [Date.ofDaysWord?_eq, if_pos hdays]

/-- The last millisecond of a leap day and the last one that is written with four digits of the
year. -/
theorem utc_followsCalendar_lastMillisecond :
    Date.ofDays (11015 + 1) = (Date.ofDays 11015).next ∧ Date.ofDays 11016 = ⟨2000, 2, 29⟩ ∧
      Date.ofDaysWord? ((2 ^ 64 - 1) / secondsPerDay) =
        some (Date.ofDays ((2 ^ 64 - 1) / secondsPerDay)) ∧
      (⟨951868799, 999⟩ : Timestamp).utc < (⟨253402300799, 999⟩ : Timestamp).utc ∧
      (⟨253402300799, 999⟩ : Timestamp).utc = "9999-12-31T23:59:59.999Z" := by
  rcases utc_followsCalendar with ⟨_, hnext, hword, horder⟩
  exact ⟨(hnext 11015).1, by decide, hword _ (by decide),
    horder ⟨951868799, 999⟩ ⟨253402300799, 999⟩ (by decide) (by decide) (by decide)
      (Or.inl (by decide)), by decide +kernel⟩

end Timestamp
end FormatCheck
