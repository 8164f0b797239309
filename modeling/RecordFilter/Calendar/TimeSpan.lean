import RecordFilter.Number.Power
import RecordFilter.Text.Blank
import RecordFilter.Text.Digits

/-!
# Time spans

A `TimeSpan` is a signed number of nanoseconds, of at most `2 ^ 63 - 1` milliseconds.  Its text
is `[-][d.]hh:mm:ss[.fraction]`; `TimeSpan.read` also takes `[-][d.]hh:mm` and a bare number of
days.
-/

namespace RecordFilter

namespace TimeSpan

/-- The greatest number of nanoseconds. -/
def bound : Nat := 9223372036854775807 * 1000000

end TimeSpan

/-- A signed number of nanoseconds. -/
structure TimeSpan where
  nanos : Int
  bounded : nanos.natAbs ≤ TimeSpan.bound
deriving DecidableEq

namespace TimeSpan

/-- The span of so many nanoseconds, if it is not too long. -/
def ofNanos? (nanos : Int) : Option TimeSpan :=
  if h : nanos.natAbs ≤ bound then some ⟨nanos, h⟩ else none

/-- No time at all. -/
def zero : TimeSpan := ⟨0, by decide⟩

/-- The order by length, shorter and negative spans first. -/
def compare (a b : TimeSpan) : Ordering := Ord.compare a.nanos b.nanos

/-! ### Writing -/

/-- A number below 100 in two digits. -/
def twoDigits (n : Nat) : List Char := Text.padded 2 n

/-- Nanoseconds as a fraction of a second, without trailing zeros; none for a whole second. -/
def fractionText (nanos : Nat) : List Char :=
  if nanos = 0 then []
  else '.' :: ((Text.padded 9 nanos).reverse.dropWhile (· == '0')).reverse

/-- The text of a span. -/
def text (s : TimeSpan) : List Char :=
  let n := s.nanos.natAbs
  let total := n / 1000000000
  (if s.nanos < 0 then ['-'] else []) ++
    (if total / 86400 = 0 then [] else Text.digits (total / 86400) ++ ['.']) ++
    twoDigits (total % 86400 / 3600) ++ ':' :: twoDigits (total % 3600 / 60) ++
    ':' :: twoDigits (total % 60) ++ fractionText (n % 1000000000)

/-! ### Reading -/

/-- The greatest number of days that a text may name. -/
def mostDays : Nat := 10675199

/-- A text cut at each colon. -/
def fields (cs : List Char) : List (List Char) := cs.splitOn ':'

/-- A text cut at its first point. -/
def cutAtPoint (cs : List Char) : Option (List Char × List Char) :=
  match cs.dropWhile (· != '.') with
  | [] => none
  | _ :: rest => some (cs.takeWhile (· != '.'), rest)

/-- The first field: hours, or days and hours. -/
def readHead (cs : List Char) : Option (Nat × Nat) :=
  match cutAtPoint cs with
  | some (days, hours) => do return (← Text.number? days, ← Text.number? hours)
  | none => do return (0, ← Text.number? cs)

/-- The last field: seconds, or seconds and a fraction of one to nine digits. -/
def readSeconds (cs : List Char) : Option (Nat × Nat) :=
  match cutAtPoint cs with
  | some (whole, fraction) =>
    if 9 < fraction.length then none
    else do
      return (← Text.number? whole, (← Text.number? fraction) * tenTo (9 - fraction.length))
  | none => do return (← Text.number? cs, 0)

/-- The nanoseconds of days, hours, minutes, seconds and nanoseconds, each within its bounds. -/
def assemble (days hours minutes seconds nanos : Nat) : Option Nat :=
  if days ≤ mostDays ∧ hours ≤ 23 ∧ minutes ≤ 59 ∧ seconds ≤ 59 then
    some ((((days * 24 + hours) * 60 + minutes) * 60 + seconds) * 1000000000 + nanos)
  else none

/-- The nanoseconds that an unsigned text names. -/
def readMagnitude (cs : List Char) : Option Nat :=
  match fields cs with
  | [days] => do assemble (← Text.number? days) 0 0 0 0
  | [head, minutes] => do
    let (days, hours) ← readHead head
    assemble days hours (← Text.number? minutes) 0 0
  | [head, minutes, seconds] => do
    let (days, hours) ← readHead head
    let (seconds, nanos) ← readSeconds seconds
    assemble days hours (← Text.number? minutes) seconds nanos
  | _ => none

/-- Reads a span; blanks around it do not matter. -/
def read (cs : List Char) : Option TimeSpan :=
  match Text.trimChars cs with
  | '-' :: body => do ofNanos? (-(← readMagnitude body : Nat))
  | body => do ofNanos? (← readMagnitude body : Nat)

end TimeSpan

end RecordFilter
