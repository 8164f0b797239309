/-!
# Calendar dates

A `Date` is a day of the proleptic Gregorian calendar.  Years reach from -262143 to 262142, and
the year 0 is the one before the year 1.  `Date.dayNumber` counts days from a fixed origin and
orders dates in time.
-/

namespace RecordFilter

namespace Date

/-- Every fourth year, except that of the years divisible by 100 only every fourth one is. -/
def isLeapYear (year : Int) : Bool :=
  year % 4 = 0 && (year % 100 != 0 || year % 400 = 0)

/-- The length of a month. -/
def daysInMonth (year : Int) (month : Nat) : Nat :=
  if month = 2 then (if isLeapYear year then 29 else 28)
  else if month = 4 ∨ month = 6 ∨ month = 9 ∨ month = 11 then 30
  else 31

/-- The year, month and day of a day of the calendar. -/
def IsValid (year : Int) (month day : Nat) : Prop :=
  -262143 ≤ year ∧ year ≤ 262142 ∧ 1 ≤ month ∧ month ≤ 12 ∧ 1 ≤ day ∧
    day ≤ daysInMonth year month

instance (year : Int) (month day : Nat) : Decidable (IsValid year month day) := by
  unfold IsValid; infer_instance

end Date

/-- A day of the calendar. -/
structure Date where
  year : Int
  month : Nat
  day : Nat
  valid : Date.IsValid year month day
deriving DecidableEq

namespace Date

/-- The date with these parts, if the calendar has it. -/
def of? (year : Int) (month day : Nat) : Option Date :=
  if h : IsValid year month day then some ⟨year, month, day, h⟩ else none

/-- The days of the year before the first of a month. -/
def daysBeforeMonth (year : Int) : Nat → Nat
  | 0 | 1 => 0
  | m + 2 => daysBeforeMonth year (m + 1) + daysInMonth year (m + 1)

/-- The days before the first of January of a year, counted from the year 1. -/
def daysBeforeYear (year : Int) : Int :=
  let y := year - 1
  365 * y + y / 4 - y / 100 + y / 400

/-- The number of a day in time. -/
def dayNumber (d : Date) : Int :=
  daysBeforeYear d.year + daysBeforeMonth d.year d.month + d.day

/-- The order in time. -/
def compare (a b : Date) : Ordering := Ord.compare a.dayNumber b.dayNumber

/-- The number of the first day of the calendar. -/
def firstDayNumber : Int := daysBeforeYear (-262143) + 1

/-- The number of the last day of the calendar. -/
def lastDayNumber : Int := daysBeforeYear 262143

end Date

end RecordFilter
