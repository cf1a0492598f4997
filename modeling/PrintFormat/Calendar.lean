/-!
Civil time in UTC on the proleptic Gregorian calendar. `CivilTime.ofUnixSeconds`
turns a count of seconds since the start of 1970 into year, month, day and time
of day; whole cycles of 400 years are taken off first, then the year and the
month are found by walking. A year outside 32 bits is the nearest one inside.
-/
namespace PrintFormat

/-- A date and a time of day. Nothing says that the fields are in range: a
caller may give any. -/
structure CivilTime where
  year : Int32 := 0
  month : UInt8 := 0
  day : UInt8 := 0
  hour : UInt8 := 0
  minute : UInt8 := 0
  second : UInt8 := 0
  deriving DecidableEq

/-- The seconds of a day. -/
def daySeconds : Nat := 86400

/-- The days of 400 years, after which the calendar repeats. -/
def cycleDays : Nat := 146097

/-- Every fourth year is a leap year, but of the hundredths only every fourth. -/
def isLeapYear (year : Int) : Bool := (year % 4 = 0 && year % 100 ≠ 0) || year % 400 = 0

def yearDays (year : Int) : Nat := if isLeapYear year then 366 else 365

theorem yearDays_pos (year : Int) : 0 < yearDays year := by
  unfold yearDays
  split <;> decide

/-- The days of the twelve months of a year. -/
def monthDays (year : Int) : List Nat :=
  [31, if isLeapYear year then 29 else 28, 31, 30, 31, 30, 31, 31, 30, 31, 30, 31]

/-- The year, and the day in it from 0, of a count of days from the start of a
year. -/
def locateYear (year : Int) (days : Nat) : Int × Nat :=
  if days < yearDays year then (year, days) else locateYear (year + 1) (days - yearDays year)
termination_by days
decreasing_by
  have := yearDays_pos year
  omega

/-- The month from `month` on, and the day in it from 0, of a count of days from
its start. What is beyond the listed months is in the last of them. -/
def locateMonth (month days : Nat) : List Nat → Nat × Nat
  | [] => (month, days)
  | [_] => (month, days)
  | length :: rest =>
      if days < length then (month, days) else locateMonth (month + 1) (days - length) rest

/-- A year, or the nearest one that 32 bits hold. -/
def clampYear (year : Int) : Int32 := Int32.ofInt (max (-0x80000000) (min year 0x7FFFFFFF))

namespace CivilTime

/-- The civil time of a count of seconds since the start of 1970. -/
def ofUnixSeconds (seconds : Int) : CivilTime :=
  let days := seconds / daySeconds
  let rest := (seconds % daySeconds).toNat
  let (year, dayOfYear) :=
    locateYear (1970 + days / cycleDays * 400) (days % cycleDays).toNat
  let (month, dayOfMonth) := locateMonth 1 dayOfYear (monthDays year)
  { year := clampYear year
    month := month.toUInt8
    day := (dayOfMonth + 1).toUInt8
    hour := (rest / 3600).toUInt8
    minute := (rest / 60 % 60).toUInt8
    second := (rest % 60).toUInt8 }

/-- The time of day of a count of seconds since midnight, which wraps at a day's
end. The date fields are zero. -/
def ofSecondsOfDay (seconds : Nat) : CivilTime :=
  let rest := seconds % daySeconds
  { hour := (rest / 3600).toUInt8
    minute := (rest / 60 % 60).toUInt8
    second := (rest % 60).toUInt8 }

/-- The seconds since midnight that the time of day counts. -/
def secondsOfDay (t : CivilTime) : Nat :=
  t.hour.toNat * 3600 + t.minute.toNat * 60 + t.second.toNat

end CivilTime
end PrintFormat
