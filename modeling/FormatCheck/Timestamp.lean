import FormatCheck.Numeral

/-!
# Timestamps

Points in time as seconds since 1970-01-01, written as a Gregorian date and a time of day in UTC
with milliseconds. The date is found by counting days in years that begin with March, so that the
leap day is the last of its year, in eras of 400 years, after which the calendar repeats.
-/

namespace FormatCheck

structure Date where
  year : Nat
  month : Nat
  day : Nat
  deriving DecidableEq, Repr

namespace Date

/-- Days from March 1 of the year 0 to January 1, 1970. -/
def epochDays : Nat := 719468

def daysPerEra : Nat := 146097

/-- The Gregorian date that many days after January 1, 1970. -/
def ofDays (days : Nat) : Date :=
  let z := days + epochDays
  let era := z / daysPerEra
  let dayOfEra := z % daysPerEra
  let yearOfEra :=
    (dayOfEra - dayOfEra / 1460 + dayOfEra / 36524 - dayOfEra / 146096) / 365
  let dayOfYear := dayOfEra - (365 * yearOfEra + yearOfEra / 4 - yearOfEra / 100)
  let monthFromMarch := (5 * dayOfYear + 2) / 153
  let day := dayOfYear - (153 * monthFromMarch + 2) / 5 + 1
  let month := if monthFromMarch < 10 then monthFromMarch + 3 else monthFromMarch - 9
  ⟨yearOfEra + era * 400 + (if month ≤ 2 then 1 else 0), month, day⟩

end Date

/-- Seconds since 1970-01-01 and milliseconds after them. -/
structure Timestamp where
  seconds : Nat
  milliseconds : Nat
  deriving DecidableEq, Repr

namespace Timestamp

def secondsPerDay : Nat := 86400

/-- A number in at least `width` digits. -/
def padded (width n : Nat) : List Char := Numeral.zeroPad width (Numeral.decimal n)

/-- The text `YYYY-MM-DDTHH:MM:SS.mmmZ`. -/
def utc (t : Timestamp) : String :=
  let date := Date.ofDays (t.seconds / secondsPerDay)
  String.ofList
    (padded 4 date.year ++ '-' :: padded 2 date.month ++ '-' :: padded 2 date.day
      ++ 'T' :: padded 2 (t.seconds % secondsPerDay / 3600)
      ++ ':' :: padded 2 (t.seconds % 3600 / 60)
      ++ ':' :: padded 2 (t.seconds % 60)
      ++ '.' :: padded 3 t.milliseconds ++ ['Z'])

end Timestamp
end FormatCheck
