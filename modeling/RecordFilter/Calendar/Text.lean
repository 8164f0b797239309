import RecordFilter.Calendar.Moment
import RecordFilter.Text.Digits

/-!
# Text of dates and times

Years from 0 to 9999 have four digits; any other has a sign and at least four.  Fractions of a
second are written with three, six or nine digits, or not at all.
-/

namespace RecordFilter

/-- The text of a year. -/
def Date.yearText (year : Int) : List Char :=
  if 0 ≤ year ∧ year ≤ 9999 then Text.padded 4 year.natAbs
  else (if year < 0 then '-' else '+') :: Text.padded 4 year.natAbs

/-- Year, month and day with hyphens between. -/
def Date.text (d : Date) : List Char :=
  Date.yearText d.year ++ '-' :: Text.padded 2 d.month ++ '-' :: Text.padded 2 d.day

/-- The fraction of a second, in thousandths, millionths or nanoseconds. -/
def TimeOfDay.fractionText (nano : Nat) : List Char :=
  if nano = 0 then []
  else if nano % 1000000 = 0 then '.' :: Text.padded 3 (nano / 1000000)
  else if nano % 1000 = 0 then '.' :: Text.padded 6 (nano / 1000)
  else '.' :: Text.padded 9 nano

/-- Hours, minutes and seconds with colons between; a leap second counts as the second after, at the
end of a minute as the second 60. -/
def TimeOfDay.text (t : TimeOfDay) : List Char :=
  Text.padded 2 t.hour ++ ':' :: Text.padded 2 t.minute ++
    ':' :: Text.padded 2 (t.second + t.nano / 1000000000) ++
    TimeOfDay.fractionText (t.nano % 1000000000)

/-- Date and time with a `T` between. -/
def DateTime.text (t : DateTime) : List Char := t.date.text ++ 'T' :: t.time.text

/-- The offset from universal time in hours and minutes. -/
def OffsetDateTime.offsetText (offset : Int) : List Char :=
  (if offset < 0 then '-' else '+') :: Text.padded 2 (offset.natAbs / 60) ++
    ':' :: Text.padded 2 (offset.natAbs % 60)

/-- Date, time and offset. -/
def OffsetDateTime.text (t : OffsetDateTime) : List Char :=
  t.clock.text ++ OffsetDateTime.offsetText t.offset

/-- Date, time and offset, universal time being named by `Z`. -/
def OffsetDateTime.zuluText (t : OffsetDateTime) : List Char :=
  t.clock.text ++ if t.offset = 0 then ['Z'] else OffsetDateTime.offsetText t.offset

end RecordFilter
