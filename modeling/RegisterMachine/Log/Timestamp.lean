import RegisterMachine.Text

set_option autoImplicit false

/-!
# The calendar and the clock

The time at which a line is logged is the reading of a clock, split into date, time of day and
milliseconds.  A clock that shows a time before 1970 counts as showing the beginning of 1970.

The date is that of a day, counted from 1 January 1970, in the Gregorian calendar, which is extended
to all times.  The calendar repeats after an era of 400 years.  Within an era years are counted from
1 March, so that the day that leap years add is the last of its year, and the months before it
follow one rule: five months have 153 days.
-/

namespace RegisterMachine.Log

/-- A date.  Years are kept modulo `2 ^ 32`; months and days are counted from 1. -/
structure Date where
  year : UInt32
  month : UInt32
  day : UInt32
  deriving DecidableEq, Repr, Inhabited

namespace Date

/-- The number of days in an era. -/
def daysPerEra : UInt64 := 146097

/-- The days from 1 March of the year 0 to 1 January 1970. -/
def epochOffset : UInt64 := 719468

/-- The place of a day in its era. -/
def dayOfEra (day : UInt64) : UInt32 := (day % daysPerEra).toUInt32

/-- The year in its era that a day belongs to: the leap days before it are left out. -/
def yearOfEra (dayOfEra : UInt32) : UInt32 :=
  (dayOfEra - dayOfEra / 1460 + dayOfEra / 36524 - dayOfEra / 146096) / 365

/-- The place of a day in its year. -/
def dayOfYear (dayOfEra yearOfEra : UInt32) : UInt32 :=
  dayOfEra - (365 * yearOfEra + yearOfEra / 4 - yearOfEra / 100)

/-- The month that a day of the year belongs to, where March is 0. -/
def monthFromMarch (dayOfYear : UInt32) : UInt32 := (5 * dayOfYear + 2) / 153

/-- The day of the month. -/
def dayOfMonth (dayOfYear monthFromMarch : UInt32) : UInt32 :=
  dayOfYear - (153 * monthFromMarch + 2) / 5 + 1

/-- The month, where January is 1. -/
def monthFromJanuary (monthFromMarch : UInt32) : UInt32 :=
  if monthFromMarch < 10 then monthFromMarch + 3 else monthFromMarch - 9

/-- The calendar year: January and February belong to the year after the one that began with the
March before. -/
def calendarYear (era : UInt64) (yearOfEra month : UInt32) : UInt64 :=
  let year := yearOfEra.toUInt64 + era * 400
  if month ≤ 2 then year + 1 else year

/-- The date of a day, where 1 January 1970 is day 0. -/
def ofDays (days : UInt64) : Date :=
  let day := days + epochOffset
  let dayOfEra := dayOfEra day
  let yearOfEra := yearOfEra dayOfEra
  let dayOfYear := dayOfYear dayOfEra yearOfEra
  let monthFromMarch := monthFromMarch dayOfYear
  let month := monthFromJanuary monthFromMarch
  { year := (calendarYear (day / daysPerEra) yearOfEra month).toUInt32
    month
    day := dayOfMonth dayOfYear monthFromMarch }

example : ofDays 0 = { year := 1970, month := 1, day := 1 } := by decide

example : ofDays 19782 = { year := 2024, month := 2, day := 29 } := by decide

end Date

/-! ## Time stamps -/

/-- A reading of the clock: seconds since the beginning of 1970, and nanoseconds of a second. -/
structure Instant where
  seconds : Int64 := 0
  nanoseconds : UInt32 := 0
  deriving DecidableEq, Repr, Inhabited

/-- A time to the millisecond, with the seconds since midnight. -/
structure Timestamp where
  date : Date
  secondOfDay : UInt64
  millisecond : UInt32
  deriving DecidableEq, Repr, Inhabited

namespace Timestamp

/-- The number of seconds in a day. -/
def secondsPerDay : UInt64 := 86400

/-- The time so many seconds and nanoseconds after the beginning of 1970. -/
def sinceEpoch (seconds : UInt64) (nanoseconds : UInt32) : Timestamp where
  date := .ofDays (seconds / secondsPerDay)
  secondOfDay := seconds % secondsPerDay
  millisecond := nanoseconds / 1000000

/-- The time that a clock shows. -/
def ofInstant (t : Instant) : Timestamp :=
  if t.seconds < 0 then sinceEpoch 0 0 else sinceEpoch t.seconds.toUInt64 t.nanoseconds

/-- The text of a time: year, month and day, and hour, minute, second and millisecond. -/
def render (t : Timestamp) : String :=
  s!"{zeroPadded 4 t.date.year.toNat}-{zeroPadded 2 t.date.month.toNat}-" ++
  s!"{zeroPadded 2 t.date.day.toNat} {zeroPadded 2 (t.secondOfDay / 3600).toNat}:" ++
  s!"{zeroPadded 2 (t.secondOfDay / 60 % 60).toNat}:" ++
  s!"{zeroPadded 2 (t.secondOfDay % 60).toNat}.{zeroPadded 3 t.millisecond.toNat}"

instance : ToString Timestamp where
  toString := render

example : (ofInstant { seconds := 1709211909, nanoseconds := 42999999 }).render =
    "2024-02-29 13:05:09.042" := by decide +kernel

end Timestamp

end RegisterMachine.Log
