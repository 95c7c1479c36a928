import FormatCheck.Proofs.Timestamp.Calendar

/-!
# Dates in unsigned 64-bit numbers

`ofDaysWord?` computes a date with unsigned 64-bit numbers and is nothing as soon as a sum or a
product leaves their range, or a difference would fall below zero. Only the first sum can fail: from
then on everything is bounded by the days of an era, and whatever is subtracted from a day counts
days that lie before it.
-/

namespace FormatCheck
namespace Date

/-- A sum or product as an unsigned 64-bit number. -/
def word? (n : Nat) : Option Nat := if n < 2 ^ 64 then some n else none

/-- A difference that is not below zero. -/
def difference? (m n : Nat) : Option Nat := if n ≤ m then some (m - n) else none

def yearOfEraWord? (day : Nat) : Option Nat := do
  let common ← difference? day (day / 1460)
  let common ← word? (common + day / 36524)
  let common ← difference? common (day / 146096)
  some (common / 365)

def dayOfYearWord? (day yearOfEra : Nat) : Option Nat := do
  let first ← word? (365 * yearOfEra)
  let first ← word? (first + yearOfEra / 4)
  let first ← difference? first (yearOfEra / 100)
  difference? day first

def monthFromMarchWord? (dayOfYear : Nat) : Option Nat := do
  let scaled ← word? (5 * dayOfYear)
  let scaled ← word? (scaled + 2)
  some (scaled / 153)

def dayWord? (dayOfYear monthFromMarch : Nat) : Option Nat := do
  let scaled ← word? (153 * monthFromMarch)
  let scaled ← word? (scaled + 2)
  let day ← difference? dayOfYear (scaled / 5)
  word? (day + 1)

def monthWord? (monthFromMarch : Nat) : Option Nat :=
  if monthFromMarch < 10 then word? (monthFromMarch + 3) else difference? monthFromMarch 9

def yearWord? (yearOfEra era month : Nat) : Option Nat := do
  let eraYears ← word? (era * 400)
  let year ← word? (yearOfEra + eraYears)
  word? (year + if month ≤ 2 then 1 else 0)

/-- The date of a day, with unsigned 64-bit numbers for all that is computed. -/
def ofDaysWord? (days : Nat) : Option Date := do
  let z ← word? (days + epochDays)
  let yearOfEra ← yearOfEraWord? (z % daysPerEra)
  let dayOfYear ← dayOfYearWord? (z % daysPerEra) yearOfEra
  let monthFromMarch ← monthFromMarchWord? dayOfYear
  let day ← dayWord? dayOfYear monthFromMarch
  let month ← monthWord? monthFromMarch
  let year ← yearWord? yearOfEra (z / daysPerEra) month
  some ⟨year, month, day⟩

variable {day year m : Nat}

theorem word?_eq_some {n : Nat} (h : n < 2 ^ 64) : word? n = some n := if_pos h

theorem difference?_eq_some {m n : Nat} (h : n ≤ m) : difference? m n = some (m - n) := if_pos h

/-! ## Steps -/

theorem yearOfEraWord?_eq (h : day < daysPerEra) :
    yearOfEraWord? day = some (commonDays day / 365) := by
  unfold daysPerEra at h
  have hfourth : difference? day (day / 1460) = some (day - day / 1460) :=
    difference?_eq_some (by omega)
  have hcentury : word? (day - day / 1460 + day / 36524) = some _ := word?_eq_some (by omega)
  have hera : difference? (day - day / 1460 + day / 36524) (day / 146096) =
      some (commonDays day) := difference?_eq_some (by omega)
  simp only [yearOfEraWord?, hfourth, hcentury, hera, Option.bind_eq_bind, Option.bind_some]

theorem dayOfYearWord?_eq (hyear : year < 400) (hfirst : marchFirst year ≤ day) :
    dayOfYearWord? day year = some (day - (365 * year + year / 4 - year / 100)) := by
  unfold marchFirst at hfirst
  have hcommon : word? (365 * year) = some _ := word?_eq_some (by omega)
  have hfourth : word? (365 * year + year / 4) = some _ := word?_eq_some (by omega)
  have hcentury : difference? (365 * year + year / 4) (year / 100) = some _ :=
    difference?_eq_some (by omega)
  have hday : difference? day (365 * year + year / 4 - year / 100) = some _ :=
    difference?_eq_some (by omega)
  simp only [dayOfYearWord?, hcommon, hfourth, hcentury, hday, Option.bind_eq_bind,
    Option.bind_some]

theorem monthFromMarchWord?_eq (h : day < 366) :
    monthFromMarchWord? day = some ((5 * day + 2) / 153) := by
  have hscaled : word? (5 * day) = some _ := word?_eq_some (by omega)
  have hsum : word? (5 * day + 2) = some _ := word?_eq_some (by omega)
  simp only [monthFromMarchWord?, hscaled, hsum, Option.bind_eq_bind, Option.bind_some]

theorem dayWord?_eq (h : day < 366) (hm : m = (5 * day + 2) / 153) :
    dayWord? day m = some (day - (153 * m + 2) / 5 + 1) := by
  have hscaled : word? (153 * m) = some _ := word?_eq_some (by omega)
  have hsum : word? (153 * m + 2) = some _ := word?_eq_some (by omega)
  have hdifference : difference? day ((153 * m + 2) / 5) = some _ :=
    difference?_eq_some (by omega)
  have hday : word? (day - (153 * m + 2) / 5 + 1) = some _ := word?_eq_some (by omega)
  simp only [dayWord?, hscaled, hsum, hdifference, hday, Option.bind_eq_bind, Option.bind_some]

theorem monthWord?_eq (m : Nat) : monthWord? m = some (if m < 10 then m + 3 else m - 9) := by
  unfold monthWord?
  split
  · exact word?_eq_some (by omega)
  · exact difference?_eq_some (by omega)

theorem yearWord?_eq {era : Nat} (hyear : year < 400) (hera : era * 400 < 2 ^ 63) (month : Nat) :
    yearWord? year era month = some (year + era * 400 + if month ≤ 2 then 1 else 0) := by
  have heraYears : word? (era * 400) = some _ := word?_eq_some (by omega)
  have hsum : word? (year + era * 400) = some _ := word?_eq_some (by omega)
  have hturn : (if month ≤ 2 then 1 else 0) ≤ 1 := by
    split <;> decide
  have hlast : word? (year + era * 400 + if month ≤ 2 then 1 else 0) = some _ :=
    word?_eq_some (by omega)
  simp only [yearWord?, heraYears, hsum, hlast, Option.bind_eq_bind, Option.bind_some]

/-! ## The whole computation -/

/-- The year found for a day of an era begins before the day and ends after it. -/
theorem yearOfEra_bounds (h : day < daysPerEra) :
    commonDays day / 365 < 400 ∧ marchFirst (commonDays day / 365) ≤ day ∧
      day < marchFirst (commonDays day / 365 + 1) := by
  rcases exists_isPlace day with ⟨year, m, k, hplace⟩
  have hlt := hplace.lt.2
  have hle : marchFirst year ≤ day := by
    rw [hplace.eq]
    omega
  have hyear : year < 400 := by
    by_contra hgreat
    have hera : marchFirst 400 ≤ marchFirst year := marchFirst_mono (not_lt.mp hgreat)
    have hdays : marchFirst 400 = daysPerEra := rfl
    omega
  rw [yearOfEra_eq hyear hle hlt]
  exact ⟨hyear, hle, hlt⟩

theorem dayOfYear_lt (hyear : year < 400) (hlast : day < marchFirst (year + 1)) :
    day - (365 * year + year / 4 - year / 100) < 366 := by
  have hzero : year / 400 = 0 := Nat.div_eq_of_lt hyear
  have hlength : (if IsLeap (year + 1) then 366 else 365) ≤ 366 := by
    split <;> decide
  rw [marchFirst_succ, marchFirst, hzero] at hlast
  omega

/-- Only adding the days before the epoch can fail. -/
theorem ofDaysWord?_eq (days : Nat) :
    ofDaysWord? days = if days + epochDays < 2 ^ 64 then some (ofDays days) else none := by
  by_cases hdays : days + epochDays < 2 ^ 64
  · have hday : (days + epochDays) % daysPerEra < daysPerEra := Nat.mod_lt _ (by decide)
    have hera : (days + epochDays) / daysPerEra * 400 < 2 ^ 63 := by
      unfold daysPerEra
      omega
    rcases yearOfEra_bounds hday with ⟨hyear, hfirst, hlast⟩
    have hlength := dayOfYear_lt hyear hlast
    rw [if_pos hdays, ofDaysWord?, word?_eq_some hdays, Option.bind_eq_bind, Option.bind_some,
      yearOfEraWord?_eq hday, Option.bind_some, dayOfYearWord?_eq hyear hfirst, Option.bind_some,
      monthFromMarchWord?_eq hlength, Option.bind_some, dayWord?_eq hlength rfl, Option.bind_some,
      monthWord?_eq, Option.bind_some, yearWord?_eq hyear hera, Option.bind_some]
    unfold ofDays commonDays
    rfl
  · rw [if_neg hdays, ofDaysWord?, word?, if_neg hdays]
    rfl

end Date
end FormatCheck
