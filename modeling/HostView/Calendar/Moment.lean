/-!
# Moments of time

A moment is given by a date and a time of day, none of whose parts need to be in range, or by how
many milliseconds it is after the start of the year 1970. Years have the same rules at all times.
-/

namespace HostView.Calendar

/-- A date and a time of day. Months are counted from zero and days of a month from one. -/
structure Moment where
  year : Int
  month : Int
  day : Int
  hour : Int
  minute : Int
  second : Int
  millisecond : Int
  deriving DecidableEq

/-- How many days of the year are before the first of a month, unless it is a leap year. -/
def daysBeforeMonth (month : Nat) : Nat :=
  ([31, 28, 31, 30, 31, 30, 31, 31, 30, 31, 30, 31].take month).foldl (· + ·) 0

/-- The year has a day more. -/
def isLeap (year : Int) : Bool := year % 4 = 0 && (year % 100 ≠ 0 || year % 400 = 0)

/-- How many days the first of a year is after that of the year 1970. -/
def daysBeforeYear (year : Int) : Int :=
  365 * (year - 1970) + (year - 1969) / 4 - (year - 1901) / 100 + (year - 1601) / 400

/-- No moment is further from the start of the year 1970. -/
def limit : Nat := 8640000000000000

/-- How many milliseconds a moment is after the start of the year 1970, within the limit. -/
def Moment.time? (m : Moment) : Option Int :=
  let year := m.year + m.month / 12
  let month := (m.month % 12).toNat
  if year < -271821 ∨ 275760 < year then none
  else
    let leapDay : Int := if 1 < month && isLeap year then 1 else 0
    let days := daysBeforeYear year + daysBeforeMonth month + leapDay + m.day - 1
    let t := (((days * 24 + m.hour) * 60 + m.minute) * 60 + m.second) * 1000 + m.millisecond
    if t.natAbs ≤ limit then some t else none

/-- The parts of a date that is read are in range, though a month may have as many days as the
longest; midnight may be at the end of a day. -/
def Moment.isValid (m : Moment) : Bool :=
  m.month ≤ 11 && m.day ≤ 31 && m.hour ≤ 24 && m.minute ≤ 59 && m.second ≤ 59 &&
    (m.hour ≠ 24 || (m.minute = 0 && m.second = 0 && m.millisecond = 0))

end HostView.Calendar
