import SqlComposer.Number.Digits

/-!
# Dates and times

A `DateTime` is a day of the proleptic Gregorian calendar, which has a year
zero, with a time of day in whole seconds.  A time given at an offset from UTC is
moved to UTC by way of the count of seconds since the first of January 1970
(`DateTime.shifted`).

The text of a date and time is `YYYY-MM-DD HH:MM:SS`.  A year has at least four
digits; a year above 9999 has a plus sign and a year below zero a minus sign.
-/

namespace SqlComposer

set_option autoImplicit false

/-- A day of the proleptic Gregorian calendar and a time of day. -/
structure DateTime where
  year : Int
  month : Nat
  day : Nat
  hour : Nat
  minute : Nat
  second : Nat
  deriving DecidableEq

namespace DateTime

def midnight (year : Int) (month day : Nat) : DateTime :=
  ⟨year, month, day, 0, 0, 0⟩

/-! ## Days and seconds -/

/-- The days from the first of March of the year zero to a date.  Years are counted from March, so
that a leap day is the last day of its year. -/
def dayNumber (year : Int) (month day : Nat) : Int :=
  let marchYear := if month ≤ 2 then year - 1 else year
  let marchMonth := (month + 9) % 12
  let dayOfYear := (153 * marchMonth + 2) / 5 + day - 1
  365 * marchYear + marchYear.fdiv 4 - marchYear.fdiv 100 + marchYear.fdiv 400 + dayOfYear

/-- The date with a day number: year, month and day. -/
def ofDayNumber (number : Int) : Int × Nat × Nat :=
  let era := number.fdiv 146097
  let dayOfEra := (number.fmod 146097).toNat
  let yearOfEra := (dayOfEra - dayOfEra / 1460 + dayOfEra / 36524 - dayOfEra / 146096) / 365
  let dayOfYear := dayOfEra - (365 * yearOfEra + yearOfEra / 4 - yearOfEra / 100)
  let marchMonth := (5 * dayOfYear + 2) / 153
  let day := dayOfYear - (153 * marchMonth + 2) / 5 + 1
  let month := if marchMonth < 10 then marchMonth + 3 else marchMonth - 9
  let year := (yearOfEra : Int) + 400 * era + (if month ≤ 2 then 1 else 0)
  (year, month, day)

/-- The seconds from the start of day number zero. -/
def seconds (time : DateTime) : Int :=
  86400 * dayNumber time.year time.month time.day
    + (3600 * time.hour + 60 * time.minute + time.second : Nat)

/-- The date and time a number of seconds after the start of day number zero. -/
def ofSeconds (count : Int) : DateTime :=
  let (year, month, day) := ofDayNumber (count.fdiv 86400)
  let rest := (count.fmod 86400).toNat
  ⟨year, month, day, rest / 3600, rest / 60 % 60, rest % 60⟩

/-- The time in UTC of a clock that shows the given time a number of seconds east of UTC. -/
def shifted (time : DateTime) (offset : Int) : DateTime :=
  ofSeconds (time.seconds - offset)

/-! ## Text -/

/-- A year with at least four digits, and with a sign when it is not between 0 and 9999. -/
def yearText (year : Int) : Text :=
  let padded := Number.paddedDigits 4 year.natAbs
  if year < 0 then '-' :: padded
  else if 9999 < year then '+' :: padded
  else padded

/-- The text `YYYY-MM-DD HH:MM:SS`. -/
def text (time : DateTime) : Text :=
  yearText time.year
    ++ '-' :: Number.paddedDigits 2 time.month
    ++ '-' :: Number.paddedDigits 2 time.day
    ++ ' ' :: Number.paddedDigits 2 time.hour
    ++ ':' :: Number.paddedDigits 2 time.minute
    ++ ':' :: Number.paddedDigits 2 time.second

end DateTime

end SqlComposer
