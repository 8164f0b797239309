import RecordFilter.Calendar.Date

/-!
# Times of day and moments

A `TimeOfDay` has nanoseconds; a leap second is a second with a thousand million or more of them.
Any second of a minute can be one, though texts have it only at the end of a minute, as the second
60.  A `DateTime` is a date with a time of day, and an `OffsetDateTime` is one that also names its
distance from universal time.  Two of the latter are the same moment when they agree in universal
time, whatever their offsets.
-/

namespace RecordFilter

namespace TimeOfDay

/-- The hours, minutes, seconds and nanoseconds of a time of day. -/
def IsValid (hour minute second nano : Nat) : Prop :=
  hour < 24 ∧ minute < 60 ∧ second < 60 ∧ nano < 2000000000

instance (h m s n : Nat) : Decidable (IsValid h m s n) := by unfold IsValid; infer_instance

end TimeOfDay

/-- A time of day with nanoseconds. -/
structure TimeOfDay where
  hour : Nat
  minute : Nat
  second : Nat
  nano : Nat
  valid : TimeOfDay.IsValid hour minute second nano
deriving DecidableEq

namespace TimeOfDay

/-- The time with these parts, of which the last is a fraction of a second; the second 60 is the
leap second. -/
def of? (hour minute second nano : Nat) : Option TimeOfDay :=
  let second' := if second = 60 then 59 else second
  let nano' := if second = 60 then 1000000000 + nano else nano
  if h : nano < 1000000000 ∧ IsValid hour minute second' nano' then
    some ⟨hour, minute, second', nano', h.2⟩
  else none

/-- The start of the day. -/
def midnight : TimeOfDay := ⟨0, 0, 0, 0, by decide⟩

/-- The seconds since midnight. -/
def seconds (t : TimeOfDay) : Nat := (t.hour * 60 + t.minute) * 60 + t.second

/-- The order within a day. -/
def compare (a b : TimeOfDay) : Ordering :=
  (Ord.compare a.seconds b.seconds).then (Ord.compare a.nano b.nano)

end TimeOfDay

/-- A date with a time of day. -/
structure DateTime where
  date : Date
  time : TimeOfDay
deriving DecidableEq

namespace DateTime

/-- The seconds since the start of the day numbered zero. -/
def seconds (t : DateTime) : Int := t.date.dayNumber * 86400 + t.time.seconds

/-- The order in time. -/
def compare (a b : DateTime) : Ordering :=
  (Ord.compare a.seconds b.seconds).then (Ord.compare a.time.nano b.time.nano)

end DateTime

namespace OffsetDateTime

/-- A local date and time whose universal time the calendar has, at an offset below a day. -/
def IsValid (clock : DateTime) (offset : Int) : Prop :=
  -1440 < offset ∧ offset < 1440 ∧
    Date.firstDayNumber * 86400 ≤ clock.seconds - offset * 60 ∧
    clock.seconds - offset * 60 < (Date.lastDayNumber + 1) * 86400

instance (clock : DateTime) (offset : Int) : Decidable (IsValid clock offset) := by
  unfold IsValid; infer_instance

end OffsetDateTime

/-- A local date and time with the minutes that it is ahead of universal time. -/
structure OffsetDateTime where
  clock : DateTime
  offset : Int
  valid : OffsetDateTime.IsValid clock offset
deriving DecidableEq

namespace OffsetDateTime

/-- The date and time with this offset, if universal time has it. -/
def of? (clock : DateTime) (offset : Int) : Option OffsetDateTime :=
  if h : IsValid clock offset then some ⟨clock, offset, h⟩ else none

/-- The seconds in universal time. -/
def seconds (t : OffsetDateTime) : Int := t.clock.seconds - t.offset * 60

/-- The order of the moments. -/
def compare (a b : OffsetDateTime) : Ordering :=
  (Ord.compare a.seconds b.seconds).then (Ord.compare a.clock.time.nano b.clock.time.nano)

end OffsetDateTime

end RecordFilter
