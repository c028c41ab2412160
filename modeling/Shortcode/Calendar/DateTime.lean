/-!
# Moments

A moment is a date and a time of day on the proleptic Gregorian calendar, at a
fixed offset from universal time. What calendars and clocks show of it, the day of
the week and of the year and the week numbers, follows from its fields.
-/

namespace Shortcode.Calendar

/-- A moment as clocks at `offset` minutes east of Greenwich show it. The second
    60 is a leap second. -/
structure DateTime where
  year : Int
  month : Nat
  day : Nat
  hour : Nat
  minute : Nat
  second : Nat
  nanosecond : Nat
  offset : Int
  deriving DecidableEq, Repr

/-- Whether a year has a 29th of February. -/
def isLeapYear (year : Int) : Bool :=
  year % 4 == 0 && (year % 100 != 0 || year % 400 == 0)

/-- The days of a common year before each month. -/
def daysBefore : List Nat :=
  [0, 31, 59, 90, 120, 151, 181, 212, 243, 273, 304, 334]

/-- The number of days from the first of January of the year 1 to that of
    `year`. -/
def daysToYear (year : Int) : Int :=
  let y := year - 1
  365 * y + y / 4 - y / 100 + y / 400

namespace DateTime

variable (t : DateTime)

/-- The day of the year, from 1 on. -/
def ordinal : Nat :=
  daysBefore.getD (t.month - 1) 0 + t.day + if t.month > 2 && isLeapYear t.year then 1 else 0

/-- The number of days since the first of January of the year 1. -/
def dayNumber : Int :=
  daysToYear t.year + t.ordinal - 1

/-- The day of the week: 0 for Sunday up to 6 for Saturday. -/
def weekday : Nat :=
  ((t.dayNumber + 1) % 7).toNat

/-- The day of the week: 1 for Monday up to 7 for Sunday. -/
def isoWeekday : Nat :=
  (t.dayNumber % 7).toNat + 1

/-- The quarter of the year, from 1 on. -/
def quarter : Nat :=
  (t.month - 1) / 3 + 1

/-- The week of the year, where week 1 begins with the first Sunday. -/
def weekFromSunday : Nat :=
  (t.ordinal + 6 - t.weekday) / 7

/-- The week of the year, where week 1 begins with the first Monday. -/
def weekFromMonday : Nat :=
  (t.ordinal + 7 - t.isoWeekday) / 7

/-- The number of weeks of a year, each counted to the year of its Thursday. -/
def isoWeeks (year : Int) : Nat :=
  let first := daysToYear year % 7
  if first == 3 || (first == 2 && isLeapYear year) then 53 else 52

/-- The year and number of the week that contains the moment; a week belongs to
    the year of its Thursday. -/
def isoWeek : Int × Nat :=
  let week := (t.ordinal + 10 - t.isoWeekday) / 7
  if week = 0 then (t.year - 1, isoWeeks (t.year - 1))
  else if isoWeeks t.year < week then (t.year + 1, 1)
  else (t.year, week)

/-- The hour on a dial of twelve. -/
def hour12 : Nat :=
  if t.hour % 12 = 0 then 12 else t.hour % 12

/-- The seconds since the beginning of 1970 in universal time, where a leap second
    counts as the one before it. -/
def timestamp : Int :=
  let days := t.dayNumber - daysToYear 1970
  days * 86400 + t.hour * 3600 + t.minute * 60 + min t.second 59 - t.offset * 60

end DateTime

end Shortcode.Calendar
