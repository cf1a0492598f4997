import PrintFormat.Calendar
import PrintFormat.Numeral.Reading
import PrintFormat.Text.Parts

/-!
The written forms of dates and times: `hh:mm:ss` on 24 or 12 hours, numeric
dates, dates with the month's name, and the sortable UTC timestamp. Civil times
are read from `YYYY-MM-DDThh:mm:ss`: there the time of day may be left out,
numbers may have any count of digits, and of the fields only month and day are
checked for their range.
-/
namespace PrintFormat

/-- The name of a month; one out of range counts as the nearest. -/
def monthName (month : UInt8) : String :=
  match month.toNat with
  | 0 | 1 => "January"
  | 2 => "February"
  | 3 => "March"
  | 4 => "April"
  | 5 => "May"
  | 6 => "June"
  | 7 => "July"
  | 8 => "August"
  | 9 => "September"
  | 10 => "October"
  | 11 => "November"
  | _ => "December"

/-- The ending that makes a day an ordinal in English. -/
def ordinalSuffix (day : UInt8) : String :=
  let n := day.toNat
  if 11 ≤ n % 100 ∧ n % 100 ≤ 13 then "th"
  else
    match n % 10 with
    | 1 => "st"
    | 2 => "nd"
    | 3 => "rd"
    | _ => "th"

/-- A field of at least two decimal digits. -/
def twoDigits (n : UInt8) : Bytes := zeroFilled 2 (natText n.toNat)

/-- A year of at least four digits, with a minus sign before them if need be. -/
def yearText (year : Int32) : Bytes :=
  (if year.toInt < 0 then [minus] else []) ++ zeroFilled 4 (natText year.toInt.natAbs)

namespace CivilTime

/-- The hour on a clock of twelve. -/
def twelveHour (t : CivilTime) : UInt8 := if t.hour % 12 = 0 then 12 else t.hour % 12

/-- The time of day, to the minute or to the second, on 24 hours or on 12. -/
def clockText (t : CivilTime) (seconds twelve : Bool) : Bytes :=
  twoDigits (if twelve then t.twelveHour else t.hour) ++ ascii ":" ++ twoDigits t.minute
    ++ (if seconds then ascii ":" ++ twoDigits t.second else [])
    ++ (if twelve then ascii (if t.hour < 12 then " AM" else " PM") else [])

/-- The year of a date: all of it, or its last two digits. -/
def dateYear (t : CivilTime) (long : Bool) : Bytes :=
  if long then yearText t.year else zeroFilled 2 (natText (t.year.toInt % 100).toNat)

/-- The date, day first, with the month as a number or by its name. -/
def dateText (t : CivilTime) (long named : Bool) : Bytes :=
  if named then
    ascii (monthName t.month) ++ ascii " " ++ natText t.day.toNat
      ++ ascii (ordinalSuffix t.day) ++ ascii " " ++ t.dateYear long
  else
    twoDigits t.day ++ ascii "/" ++ twoDigits t.month ++ ascii "/" ++ t.dateYear long

/-- The timestamp `YYYY-MM-DDThh:mm:ssZ`. -/
def utcText (t : CivilTime) : Bytes :=
  yearText t.year ++ ascii "-" ++ twoDigits t.month ++ ascii "-" ++ twoDigits t.day
    ++ ascii "T" ++ twoDigits t.hour ++ ascii ":" ++ twoDigits t.minute ++ ascii ":"
    ++ twoDigits t.second ++ ascii "Z"

/-! ## Reading -/

/-- Reads the date: year, month and day between hyphens. -/
def readDate? (cs : List Char) : Option (Int × UInt8 × UInt8) := do
  let (year, month, day) ← Text.cutThree? (· = '-') cs
  return (← readInt? 0x80000000 year, ← readByte? 10 month, ← readByte? 10 day)

/-- Reads the time of day: hour, minute and second between colons. -/
def readClock? (cs : List Char) : Option (UInt8 × UInt8 × UInt8) := do
  let (hour, minute, second) ← Text.cutThree? (· = ':') cs
  return (← readByte? 10 hour, ← readByte? 10 minute, ← readByte? 10 second)

/-- Reads a civil time. -/
def read? (text : String) : Option CivilTime := do
  let (date, clock) := Text.cut (· = 'T') text.toList
  let (year, month, day) ← readDate? date
  let (hour, minute, second) ← readClock? (clock.getD "00:00:00".toList)
  if 1 ≤ month ∧ month ≤ 12 ∧ 1 ≤ day ∧ day ≤ 31 then
    some { year := Int32.ofInt year, month, day, hour, minute, second }
  else none

end CivilTime
end PrintFormat
