import FormatCheck.Timestamp
import Mathlib.Tactic.IntervalCases

/-!
# The Gregorian calendar

The date of a day is computed without a loop; the calendar is the loop: `Date.next` turns the day,
the month and the year over as a calendar does, and `ofDays_succ` says that the computed dates
follow each other in this way.

The computation counts years, months and days from the first of March. `IsPlace` relates a day
number to such a place:

1. every day number has a place, since the day after a place has one (`IsPlace.succ`);
2. a place determines the date that is computed (`IsPlace.ofDays_eq`), because the year found by the
   three corrected quotients begins before the day and ends after it (`yearOfEra_eq`).
-/

namespace FormatCheck
namespace Date

/-! ## The calendar -/

/-- Every fourth year is a leap year, except for full centuries that are not divisible by 400. -/
def IsLeap (year : Nat) : Prop := year % 4 = 0 ∧ (year % 100 = 0 → year % 400 = 0)

instance (year : Nat) : Decidable (IsLeap year) := inferInstanceAs (Decidable (_ ∧ _))

def daysInMonth (year month : Nat) : Nat :=
  if month = 2 then if IsLeap year then 29 else 28
  else if month = 4 ∨ month = 6 ∨ month = 9 ∨ month = 11 then 30
  else 31

/-- A date that the calendar has. -/
structure IsGregorian (date : Date) : Prop where
  month_pos : 1 ≤ date.month
  month_le : date.month ≤ 12
  day_pos : 1 ≤ date.day
  day_le : date.day ≤ daysInMonth date.year date.month

/-- The date of the next day. -/
def next (date : Date) : Date :=
  if date.day < daysInMonth date.year date.month then { date with day := date.day + 1 }
  else if date.month < 12 then ⟨date.year, date.month + 1, 1⟩
  else ⟨date.year + 1, 1, 1⟩

/-! ## Years and months from March -/

/-- The days from March 1 of the year 0 to March 1 of a year. -/
def marchFirst (year : Nat) : Nat := 365 * year + year / 4 - year / 100 + year / 400

/-- The days from March 1 to the first of a month, the months counted from March as 0. -/
def monthFirst (m : Nat) : Nat := (153 * m + 2) / 5

/-- The calendar's number of a month counted from March. -/
def monthNumber (m : Nat) : Nat := if m < 10 then m + 3 else m - 9

/-- The date with that many days before it in a month, of a year that began in March. -/
def ofMarch (year m k : Nat) : Date :=
  ⟨year + (if monthNumber m ≤ 2 then 1 else 0), monthNumber m, k + 1⟩

/-- The length of a month of a year that began in March. -/
def monthLength (year m : Nat) : Nat :=
  daysInMonth (year + (if monthNumber m ≤ 2 then 1 else 0)) (monthNumber m)

variable {z year m k : Nat}

theorem daysInMonth_pos (year month : Nat) : 0 < daysInMonth year month := by
  unfold daysInMonth
  split_ifs <;> decide

/-- The year has a leap day if the February at its end has one. -/
theorem marchFirst_succ (year : Nat) :
    marchFirst (year + 1) = marchFirst year + (if IsLeap (year + 1) then 366 else 365) := by
  have hfourth : (year + 1) / 4 = year / 4 + (if (year + 1) % 4 = 0 then 1 else 0) := by
    split <;> omega
  have hcentury : (year + 1) / 100 = year / 100 + (if (year + 1) % 100 = 0 then 1 else 0) := by
    split <;> omega
  have hera : (year + 1) / 400 = year / 400 + (if (year + 1) % 400 = 0 then 1 else 0) := by
    split <;> omega
  have hle : year / 100 ≤ year / 4 := by omega
  rw [marchFirst, marchFirst, hfourth, hcentury, hera]
  unfold IsLeap
  -- Divisibility by 400 implies that by 100, and that the one by 4.
  by_cases h400 : (year + 1) % 400 = 0
  · have h100 : (year + 1) % 100 = 0 := by omega
    have h4 : (year + 1) % 4 = 0 := by omega
    simp only [h400, h100, h4, implies_true, and_self, if_true]
    omega
  · by_cases h4 : (year + 1) % 4 = 0
    · by_cases h100 : (year + 1) % 100 = 0
      · simp only [h400, h100, h4, forall_const, and_false, if_true, if_false]
        omega
      · simp only [h400, h100, h4, false_implies, and_self, if_true, if_false]
        omega
    · have h100 : (year + 1) % 100 ≠ 0 := by omega
      simp only [h400, h100, h4, false_and, if_false]
      omega

theorem marchFirst_add_eras (year era : Nat) :
    marchFirst (year + era * 400) = marchFirst year + era * daysPerEra := by
  unfold marchFirst daysPerEra
  omega

/-- All months up to January have the length that the next month's beginning says. -/
theorem monthFirst_succ (year : Nat) (hm : m < 11) :
    monthFirst (m + 1) = monthFirst m + monthLength year m := by
  interval_cases m <;> rfl

/-- February takes the rest of the year. -/
theorem marchFirst_succ_eq (year : Nat) :
    marchFirst (year + 1) = marchFirst year + monthFirst 11 + monthLength year 11 := by
  rw [marchFirst_succ]
  have hlength : monthLength year 11 = if IsLeap (year + 1) then 29 else 28 := rfl
  have hfirst : monthFirst 11 = 337 := rfl
  rw [hlength, hfirst]
  split <;> omega

/-! ## Places -/

/-- The day `z`, counted from March 1 of the year 0, has `k` days before it in the month. -/
structure IsPlace (z year m k : Nat) : Prop where
  month_lt : m < 12
  day_lt : k < monthLength year m
  eq : z = marchFirst year + monthFirst m + k

/-- The day after a place is the next day of the calendar. -/
theorem IsPlace.succ (h : IsPlace z year m k) :
    ∃ year' m' k', IsPlace (z + 1) year' m' k' ∧ ofMarch year' m' k' = (ofMarch year m k).next := by
  rcases h with ⟨hm, hk, rfl⟩
  have hlength : daysInMonth (ofMarch year m k).year (ofMarch year m k).month =
      monthLength year m := rfl
  have hday : (ofMarch year m k).day = k + 1 := rfl
  by_cases hlast : k + 1 < monthLength year m
  · -- There is another day in the month.
    refine ⟨year, m, k + 1, ⟨hm, hlast, rfl⟩, ?_⟩
    rw [next, hlength, hday, if_pos hlast]
    rfl
  · have hk' : k + 1 = monthLength year m := by omega
    rw [next, hlength, hday, if_neg hlast]
    by_cases hfebruary : m < 11
    · -- The next month begins, and after December the calendar's next year.
      refine ⟨year, m + 1, 0, ⟨by omega, daysInMonth_pos _ _, ?_⟩, ?_⟩
      · rw [monthFirst_succ year hfebruary]
        omega
      · interval_cases m <;> rfl
    · -- The last of February is the last day before the first of March.
      obtain rfl : m = 11 := by omega
      refine ⟨year + 1, 0, 0, ⟨by omega, daysInMonth_pos _ _, ?_⟩, rfl⟩
      rw [marchFirst_succ_eq]
      have hzero : monthFirst 0 = 0 := rfl
      omega

/-- Every day has a place. -/
theorem exists_isPlace (z : Nat) : ∃ year m k, IsPlace z year m k := by
  induction z with
  | zero =>
      exact ⟨0, 0, 0, by decide, by decide, rfl⟩
  | succ z ih =>
      rcases ih with ⟨year, m, k, h⟩
      rcases h.succ with ⟨year', m', k', h', _⟩
      exact ⟨year', m', k', h'⟩

/-! ## The year of a day -/

/-- A day of an era with the leap days before it left out, as the three quotients count them. -/
def commonDays (day : Nat) : Nat := day - day / 1460 + day / 36524 - day / 146096

theorem commonDays_mono {day day' : Nat} (h : day ≤ day') (hday' : day' < daysPerEra) :
    commonDays day ≤ commonDays day' := by
  unfold commonDays
  unfold daysPerEra at hday'
  -- The last quotient is one on the last day of the era alone.
  by_cases hlast : day' = 146096
  · omega
  · have hzero : day' / 146096 = 0 := by omega
    have hzero' : day / 146096 = 0 := by omega
    omega

/-- A year of an era begins at the right multiple of 365 days, and ends before the next one. -/
theorem commonDays_marchFirst : ∀ year < 400,
    365 * year ≤ commonDays (marchFirst year) ∧
      commonDays (marchFirst (year + 1) - 1) < 365 * (year + 1) := by
  decide +kernel

theorem marchFirst_mono {year year' : Nat} (h : year ≤ year') :
    marchFirst year ≤ marchFirst year' := by
  induction h with
  | refl => exact Nat.le_refl _
  | step _ ih =>
      rw [marchFirst_succ]
      omega

/-- An era has four hundred years. -/
theorem marchFirst_le_daysPerEra {year : Nat} (h : year ≤ 400) : marchFirst year ≤ daysPerEra :=
  marchFirst_mono h

/-- The corrected quotient is the year of the era. -/
theorem yearOfEra_eq {day : Nat} (hyear : year < 400) (hfirst : marchFirst year ≤ day)
    (hlast : day < marchFirst (year + 1)) : commonDays day / 365 = year := by
  have hera : marchFirst (year + 1) ≤ daysPerEra := marchFirst_le_daysPerEra (by omega)
  rcases commonDays_marchFirst year hyear with ⟨hlow, hhigh⟩
  have hday := commonDays_mono hfirst (by omega)
  have hday' := commonDays_mono (Nat.le_sub_one_of_lt hlast) (by omega)
  omega

/-- The month found is the one that the day falls in. -/
theorem monthFromMarch_eq {r : Nat} (hfirst : monthFirst m ≤ r) (hlast : r < monthFirst (m + 1)) :
    (5 * r + 2) / 153 = m := by
  unfold monthFirst at *
  omega

/-- A day falls before the month after its own, and before the year after its own. -/
theorem IsPlace.lt (h : IsPlace z year m k) :
    monthFirst m + k < monthFirst (m + 1) ∧ z < marchFirst (year + 1) := by
  rcases h with ⟨hm, hk, rfl⟩
  have hyear := marchFirst_succ_eq year
  by_cases hfebruary : m < 11
  · have hmonth := monthFirst_succ year hfebruary
    have hle : monthFirst (m + 1) ≤ monthFirst 11 := by
      unfold monthFirst
      omega
    omega
  · obtain rfl : m = 11 := by omega
    have hlength : monthLength year 11 ≤ 29 := by
      change (if IsLeap (year + 1) then 29 else 28) ≤ 29
      split <;> omega
    have hnext : monthFirst (11 + 1) = monthFirst 11 + 30 := rfl
    omega

/-- The date that is computed is that of the place. -/
theorem IsPlace.ofDays_eq {days : Nat} (h : IsPlace (days + epochDays) year m k) :
    ofDays days = ofMarch year m k := by
  obtain ⟨y, era, hy, rfl⟩ : ∃ y era, y < 400 ∧ year = y + era * 400 :=
    ⟨year % 400, year / 400, Nat.mod_lt year (by decide), by omega⟩
  have hlt := h.lt
  have hz := h.eq
  have hsucc : y + era * 400 + 1 = y + 1 + era * 400 := by omega
  rw [hsucc, marchFirst_add_eras] at hlt
  rw [marchFirst_add_eras] at hz
  have hbound : marchFirst (y + 1) ≤ daysPerEra := marchFirst_le_daysPerEra (by omega)
  -- The day of the era is the one of the same place in the first era.
  have hday : days + epochDays =
      era * daysPerEra + (marchFirst y + (monthFirst m + k)) := by omega
  have hera : (days + epochDays) / daysPerEra = era := by
    unfold daysPerEra at *
    omega
  have hdayOfEra : (days + epochDays) % daysPerEra = marchFirst y + (monthFirst m + k) := by
    unfold daysPerEra at *
    omega
  have hyear : commonDays (marchFirst y + (monthFirst m + k)) / 365 = y :=
    yearOfEra_eq hy (by omega) (by omega)
  have hdayOfYear : marchFirst y + (monthFirst m + k) - (365 * y + y / 4 - y / 100) =
      monthFirst m + k := by
    have hzero : y / 400 = 0 := by omega
    rw [marchFirst, hzero]
    omega
  have hmonth : (5 * (monthFirst m + k) + 2) / 153 = m := monthFromMarch_eq (by omega) hlt.1
  have hk : monthFirst m + k - (153 * m + 2) / 5 + 1 = k + 1 := by
    unfold monthFirst
    omega
  unfold commonDays at hyear
  simp only [ofDays, hera, hdayOfEra, hyear, hdayOfYear, hmonth, hk]
  rfl

/-! ## The dates of successive days -/

theorem ofDays_zero : ofDays 0 = ⟨1970, 1, 1⟩ := by decide

/-- The date of the next day is the next date of the calendar. -/
theorem ofDays_succ (days : Nat) : ofDays (days + 1) = (ofDays days).next := by
  rcases exists_isPlace (days + epochDays) with ⟨year, m, k, h⟩
  rcases h.succ with ⟨year', m', k', h', hnext⟩
  have hsucc : days + epochDays + 1 = days + 1 + epochDays := by omega
  rw [hsucc] at h'
  rw [h.ofDays_eq, h'.ofDays_eq, hnext]

theorem isGregorian_ofDays (days : Nat) : (ofDays days).IsGregorian := by
  rcases exists_isPlace (days + epochDays) with ⟨year, m, k, h⟩
  rw [h.ofDays_eq]
  have hm := h.month_lt
  exact
    { month_pos := by
        change 1 ≤ monthNumber m
        unfold monthNumber
        split <;> omega
      month_le := by
        change monthNumber m ≤ 12
        unfold monthNumber
        split <;> omega
      day_pos := Nat.succ_pos k
      day_le := h.day_lt }

end Date
end FormatCheck
