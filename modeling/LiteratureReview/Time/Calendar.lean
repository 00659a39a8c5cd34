/-
  LiteratureReview.Time.Calendar
  ──────────────────────────────
  Days of the Gregorian calendar, counted from 1 January 1970, and instants.

  The count runs through 400-year cycles of 146097 days; within a cycle the
  year is taken to begin in March, so that the leap day is the last one.
-/

namespace LiteratureReview.Time

/-! ## §1. Dates. -/

/-- A year, month and day, none of them checked. -/
structure Date where
  year : Int
  month : Nat
  day : Nat
  deriving DecidableEq, Repr

/-- A leap year. -/
def isLeapYear (year : Int) : Bool :=
  year % 4 == 0 && (year % 100 != 0 || year % 400 == 0)

/-- The number of days of a month. -/
def daysInMonth (year : Int) (month : Nat) : Nat :=
  if month = 2 then (if isLeapYear year then 29 else 28)
  else if month = 4 ∨ month = 6 ∨ month = 9 ∨ month = 11 then 30
  else 31

/-- The years that dates are counted in. -/
def yearLimit : Int := 262143

/-- A day of the calendar. -/
def Date.isValid (d : Date) : Bool :=
  -yearLimit ≤ d.year && d.year ≤ yearLimit - 1 && 1 ≤ d.month && d.month ≤ 12 && 1 ≤ d.day
    && d.day ≤ daysInMonth d.year d.month

/-- Days from 1 January 1970. -/
def Date.toDays (d : Date) : Int :=
  let year := if d.month ≤ 2 then d.year - 1 else d.year
  let cycle := year.fdiv 400
  let yearOfCycle := year - cycle * 400
  let monthFromMarch : Int := ((d.month : Int) + 9) % 12
  let dayOfYear := (153 * monthFromMarch + 2) / 5 + d.day - 1
  let dayOfCycle := yearOfCycle * 365 + yearOfCycle / 4 - yearOfCycle / 100 + dayOfYear
  cycle * 146097 + dayOfCycle - 719468

/-- The date some days from 1 January 1970. -/
def Date.ofDays (days : Int) : Date :=
  let shifted := days + 719468
  let cycle := shifted.fdiv 146097
  let dayOfCycle := shifted - cycle * 146097
  let yearOfCycle :=
    (dayOfCycle - dayOfCycle / 1460 + dayOfCycle / 36524 - dayOfCycle / 146096) / 365
  let dayOfYear := dayOfCycle - (365 * yearOfCycle + yearOfCycle / 4 - yearOfCycle / 100)
  let monthFromMarch := (5 * dayOfYear + 2) / 153
  let day := dayOfYear - (153 * monthFromMarch + 2) / 5 + 1
  let month := if monthFromMarch < 10 then monthFromMarch + 3 else monthFromMarch - 9
  let year := yearOfCycle + cycle * 400 + (if month ≤ 2 then 1 else 0)
  ⟨year, month.toNat, day.toNat⟩

/-! ## §2. Instants. -/

/-- A moment in UTC: seconds from the start of 1970, and nanoseconds.  During a
leap second the nanoseconds go on from one to two thousand million. -/
structure Instant where
  seconds : Int
  nanos : Nat
  deriving DecidableEq, Repr, Inhabited

/-- A date and a time of day, as they are written. -/
structure DateTime where
  date : Date
  hour : Nat
  minute : Nat
  second : Nat
  nanos : Nat
  deriving DecidableEq, Repr

/-- The instant of a date and time some seconds east of UTC.  Second 60 is the
leap second that follows second 59. -/
def DateTime.toInstant (t : DateTime) (offset : Int) : Instant :=
  let second := if t.second = 60 then 59 else t.second
  let nanos := if t.second = 60 then t.nanos + 1000000000 else t.nanos
  ⟨t.date.toDays * 86400 + (t.hour * 3600 + t.minute * 60 + second : Nat) - offset, nanos⟩

/-- The date and time in UTC. -/
def Instant.toDateTime (i : Instant) : DateTime :=
  let days := i.seconds.fdiv 86400
  let rest := (i.seconds - days * 86400).toNat
  let leap := decide (1000000000 ≤ i.nanos)
  { date := Date.ofDays days
    hour := rest / 3600
    minute := rest / 60 % 60
    second := rest % 60 + (if leap then 1 else 0)
    nanos := if leap then i.nanos - 1000000000 else i.nanos }

end LiteratureReview.Time
