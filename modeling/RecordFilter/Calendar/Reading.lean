import RecordFilter.Calendar.Moment
import RecordFilter.Number.Power
import RecordFilter.Text.Blank
import RecordFilter.Text.Digits

/-!
# Reading dates and times

A `Reader` takes a value from the front of a text.  The readers of fields are shared; what
differs between the accepted forms is where blanks may stand (`Spacing`), which parts are
present, and how the offset is written.

* `Date.read`, `DateTime.read`, `TimeOfDay.read`, `OffsetDateTime.read`: the forms of filter
  arguments.
* `Date.readField`, `DateTime.readField`, `TimeOfDay.readField`, `OffsetDateTime.readField`: the
  forms of the fields of stored records, where blanks may also stand before a separator.
-/

namespace RecordFilter

/-- Takes a value from the front of a text, or fails. -/
abbrev Reader (α : Type) : Type := StateT (List Char) Option α

namespace Reader

/-- The value of a reader that takes the whole text. -/
def whole {α : Type} (r : Reader α) (cs : List Char) : Option α :=
  match r.run cs with
  | some (a, []) => some a
  | _ => none

/-- Skips blanks, if any. -/
def blanks : Reader Unit := fun cs => some ((), Text.trimStart cs)

/-- Takes one given character. -/
def literal (c : Char) : Reader Unit
  | d :: cs => if d = c then some ((), cs) else none
  | [] => none

/-- Takes a character that satisfies a condition. -/
def satisfying (p : Char → Bool) : Reader Char
  | d :: cs => if p d then some (d, cs) else none
  | [] => none

/-- Takes from `least` to `most` digits. -/
def digitsBetween (least most : Nat) : Reader (List Char) := fun cs =>
  let ds := (cs.take most).takeWhile Char.isDigit
  if least ≤ ds.length then some (ds, cs.drop ds.length) else none

/-- Takes all digits in front, but at least one. -/
def someDigits : Reader (List Char) := fun cs =>
  let ds := cs.takeWhile Char.isDigit
  if ds = [] then none else some (ds, cs.drop ds.length)

/-- A number of exactly `n` digits. -/
def exactly (n : Nat) : Reader Nat := Text.number <$> digitsBetween n n

/-- A number of at most `n` digits, after blanks. -/
def field (n : Nat) : Reader Nat := do
  blanks
  Text.number <$> digitsBetween 1 n

/-- A year: up to four digits, or a sign and any number of them. -/
def year : Reader Int := do
  blanks
  fun
  | '-' :: cs => ((fun ds => -(Text.number ds : Int)) <$> someDigits).run cs
  | '+' :: cs => ((fun ds => (Text.number ds : Int)) <$> someDigits).run cs
  | cs => ((fun ds => (Text.number ds : Int)) <$> digitsBetween 1 4).run cs

/-- A fraction of a second in nanoseconds, if there is one; digits after the ninth are skipped. -/
def fraction : Reader Nat
  | '.' :: cs => (do
      let ds ← someDigits
      return Text.number (ds.take 9) * tenTo (9 - ds.length)).run cs
  | cs => some (0, cs)

/-- What may stand between the hours and the minutes of an offset. -/
inductive OffsetSeparator where
  /-- One colon. -/
  | colon
  /-- Colons and blanks, or nothing. -/
  | loose

/-- Skips what stands between hours and minutes. -/
def OffsetSeparator.skip : OffsetSeparator → Reader Unit
  | colon => literal ':'
  | loose => fun cs => some ((), cs.dropWhile fun c => c == ':' || Text.isBlank c)

/-- A sign (the minus sign U+2212 too), hours and minutes, as minutes ahead of universal time. -/
def utcOffset (separator : OffsetSeparator) : Reader Int := do
  let sign ← satisfying fun c => c == '+' || c == '-' || c == '\u2212'
  let hours ← exactly 2
  separator.skip
  let minutes ← exactly 2
  if 60 ≤ minutes then failure
  let total : Int := hours * 60 + minutes
  return if sign == '+' then total else -total

/-- An offset, or `Z` for none. -/
def offsetOrZulu (separator : OffsetSeparator) : Reader Int
  | 'Z' :: cs | 'z' :: cs => some (0, cs)
  | cs => (utcOffset separator).run cs

/-- Where blanks may stand around the separators of a date or time. -/
inductive Spacing where
  /-- Only before a number. -/
  | before
  /-- Before a number and before a separator. -/
  | around

/-- A separator. -/
def separator (s : Spacing) (c : Char) : Reader Unit := do
  match s with
  | .before => literal c
  | .around => blanks; literal c

/-- Year, month and day. -/
def calendarDate (s : Spacing) : Reader Date := do
  let y ← year
  separator s '-'
  let m ← field 2
  separator s '-'
  let d ← field 2
  Date.of? y m d

/-- Hours and minutes. -/
def hourMinute (s : Spacing) : Reader (Nat × Nat) := do
  let h ← field 2
  separator s ':'
  let m ← field 2
  return (h, m)

/-- Hours and minutes, at the full minute. -/
def minuteTime (s : Spacing) : Reader TimeOfDay := do
  let (h, m) ← hourMinute s
  TimeOfDay.of? h m 0 0

/-- Hours, minutes, seconds and perhaps a fraction. -/
def secondTime (s : Spacing) : Reader TimeOfDay := do
  let (h, m) ← hourMinute s
  separator s ':'
  let sec ← field 2
  let nano ← fraction
  TimeOfDay.of? h m sec nano

end Reader

open Reader

/-- Reads a date. -/
def Date.read (cs : List Char) : Option Date := (calendarDate .before).whole cs

/-- A date and a time with `between` in the middle. -/
def DateTime.form (between : Reader Unit) (time : Reader TimeOfDay) : Reader DateTime := do
  let d ← calendarDate .before
  between
  return ⟨d, ← time⟩

/-- Reads a date and a time with `T` or blanks between, with seconds or without; a date alone is
its midnight. -/
def DateTime.read (cs : List Char) : Option DateTime :=
  (DateTime.form (literal 'T') (secondTime .before)).whole cs <|>
  (DateTime.form blanks (secondTime .before)).whole cs <|>
  (DateTime.form (literal 'T') (minuteTime .before)).whole cs <|>
  (DateTime.form blanks (minuteTime .before)).whole cs <|>
  (Date.read cs).map (⟨·, .midnight⟩)

/-- Reads a time of day, with seconds or without. -/
def TimeOfDay.read (cs : List Char) : Option TimeOfDay :=
  (secondTime .before).whole cs <|> (minuteTime .before).whole cs

/-- The strict form: every number has all its digits, and no blank stands anywhere except in
place of the `T`. -/
def OffsetDateTime.strict : Reader OffsetDateTime := do
  let y ← exactly 4
  literal '-'
  let m ← exactly 2
  literal '-'
  let d ← exactly 2
  let _ ← satisfying fun c => c == 'T' || c == 't' || c == ' '
  let h ← exactly 2
  literal ':'
  let min ← exactly 2
  literal ':'
  let sec ← exactly 2
  let nano ← fraction
  let offset ← offsetOrZulu .colon
  OffsetDateTime.of? ⟨← Date.of? y m d, ← TimeOfDay.of? h min sec nano⟩ offset

/-- The spaced form: blanks between date and time, and a numeric offset. -/
def OffsetDateTime.spaced : Reader OffsetDateTime := do
  let clock ← DateTime.form blanks (secondTime .before)
  blanks
  OffsetDateTime.of? clock (← utcOffset .loose)

/-- Reads a date and time with offset, in the strict or the spaced form. -/
def OffsetDateTime.read (cs : List Char) : Option OffsetDateTime :=
  OffsetDateTime.strict.whole cs <|> OffsetDateTime.spaced.whole cs

/-! ### Fields of stored records -/

/-- Reads the date of a record. -/
def Date.readField (cs : List Char) : Option Date :=
  (do let d ← calendarDate .around; blanks; return d : Reader Date).whole cs

/-- Reads the date and time of a record. -/
def DateTime.readField (cs : List Char) : Option DateTime :=
  (do
    let d ← calendarDate .around
    separator .around 'T'
    let t ← secondTime .around
    blanks
    return ⟨d, t⟩ : Reader DateTime).whole cs

/-- Reads the time of a record; the seconds may be left out. -/
def TimeOfDay.readField (cs : List Char) : Option TimeOfDay :=
  (do let t ← secondTime .around; blanks; return t : Reader TimeOfDay).whole cs <|>
  (do let t ← minuteTime .around; blanks; return t : Reader TimeOfDay).whole cs

/-- The offset of a record's moment: `UTC` in either case, `Z`, or numeric. -/
def OffsetDateTime.fieldOffset : Reader Int := fun cs =>
  if String.ofList ((cs.take 3).map Char.toLower) = "utc" then some (0, cs.drop 3)
  else (offsetOrZulu .loose).run cs

/-- Reads the date and time with offset of a record. -/
def OffsetDateTime.readField (cs : List Char) : Option OffsetDateTime :=
  (do
    let d ← calendarDate .around
    let _ ← satisfying fun c => c == 'T' || c == 't' || c == ' '
    let t ← secondTime .around
    blanks
    let offset ← OffsetDateTime.fieldOffset
    blanks
    OffsetDateTime.of? ⟨d, t⟩ offset : Reader OffsetDateTime).whole cs

end RecordFilter
