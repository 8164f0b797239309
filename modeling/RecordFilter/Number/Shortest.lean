import RecordFilter.Number.Binary
import RecordFilter.Number.Power
import RecordFilter.Text.Digits

/-!
# Decimal text of binary numbers

`shortest` finds the fewest decimal digits that read back as the number they were made from; of
those the nearest to it.  A number is written from them either positionally (`plain`) or as data
has it (`dataText?`).  `read` takes a numeral with fraction and exponent to the nearest number.
-/

namespace RecordFilter

/-- The magnitude `digits · 10 ^ exponent`. -/
structure Scientific where
  digits : Nat
  exponent : Int
deriving Repr, DecidableEq

/-- Which of two equally near digit sequences is taken. -/
inductive TieRule where
  | up | even
deriving Repr, DecidableEq

namespace Scientific

/-- Drops trailing zeros of the digits. -/
def reduce (digits : Nat) (exponent : Int) : Scientific :=
  if h : 0 < digits ∧ digits % 10 = 0 then reduce (digits / 10) (exponent + 1)
  else ⟨digits, exponent⟩
termination_by digits
decreasing_by omega

/-- The number of digits before the point when written positionally; it may be negative. -/
def pointPlace (x : Scientific) : Int := (Text.digits x.digits).length + x.exponent

/-- Positional notation, with `tail` after an integer. -/
def positional (x : Scientific) (tail : List Char) : List Char :=
  let ds := Text.digits x.digits
  let p := x.pointPlace
  if p ≤ 0 then ['0', '.'] ++ List.replicate (-p).toNat '0' ++ ds
  else if ds.length ≤ p.toNat then ds ++ List.replicate (p.toNat - ds.length) '0' ++ tail
  else ds.take p.toNat ++ '.' :: ds.drop p.toNat

/-- Notation with one digit before the point and an explicit sign in the exponent. -/
def exponential (x : Scientific) : List Char :=
  let e := x.pointPlace - 1
  let mantissa := match Text.digits x.digits with
    | [] => []
    | [d] => [d]
    | d :: ds => d :: '.' :: ds
  mantissa ++ 'e' :: (if e < 0 then '-' else '+') :: Text.digits e.natAbs

end Scientific

namespace Binary

/-- Bounds and middle of the interval of rationals that round to a number, over one denominator;
`closed` says whether the bounds belong to it. -/
structure Interval where
  low : Nat
  middle : Nat
  high : Nat
  den : Nat
  closed : Bool

/-- The interval around `significand · 2 ^ exponent`: half way to each neighbour, and the lower
neighbour of a power of two is twice as near. -/
def interval (F : FloatFormat) (significand : Nat) (exponent : Int) : Interval :=
  let below := if significand = twoTo (F.precision - 1) ∧ F.leastExponent < exponent then 1 else 2
  let up := twoTo (exponent - 2).toNat
  { low := (4 * significand - below) * up
    middle := 4 * significand * up
    high := (4 * significand + 2) * up
    den := twoTo (2 - exponent).toNat
    closed := significand % 2 = 0 }

namespace Interval

/-- Membership of `c · 10 ^ -places` for an interval scaled by `10 ^ places`. -/
def contains (i : Interval) (c : Nat) : Bool :=
  if i.closed then i.low ≤ c * i.den && c * i.den ≤ i.high
  else i.low < c * i.den && c * i.den < i.high

/-- The interval divided by `10 ^ place`. -/
def shift (i : Interval) (place : Int) : Interval :=
  let up := tenTo (-place).toNat
  { i with
    low := i.low * up, middle := i.middle * up, high := i.high * up
    den := i.den * tenTo place.toNat }

/-- The multiple of `10 ^ place` in the interval that is nearest to the middle. -/
def nearest? (tie : TieRule) (i : Interval) (place : Int) : Option Nat :=
  let j := i.shift place
  let q := j.middle / j.den
  let down := j.middle - q * j.den
  let up := (q + 1) * j.den - j.middle
  match j.contains q, j.contains (q + 1) with
  | false, false => none
  | true, false => some q
  | false, true => some (q + 1)
  | true, true =>
    if down < up then some q
    else if up < down then some (q + 1)
    else match tie with
      | .up => some (q + 1)
      | .even => some (if q % 2 = 0 then q else q + 1)

/-- The number of decimal digits before the point of the middle. -/
def magnitude (i : Interval) : Int :=
  (Text.digits (i.middle * tenTo 400 / i.den)).length - 400

/-- Tries one digit, then two, and so on; at the last the digits below the middle are kept. -/
def search (tie : TieRule) (i : Interval) (magnitude : Int) (count : Nat) : Nat → Scientific
  | 0 => ⟨(i.shift (magnitude - count)).middle / (i.shift (magnitude - count)).den,
      magnitude - count⟩
  | more + 1 =>
    match i.nearest? tie (magnitude - count) with
    | some digits => .reduce digits (magnitude - count)
    | none => search tie i magnitude (count + 1) more

end Interval

/-- The fewest digits that read back, and the nearest of those.  Seventeen always suffice. -/
def shortest (F : FloatFormat) (tie : TieRule) (significand : Nat) (exponent : Int) :
    Scientific :=
  let i := interval F significand exponent
  i.search tie i.magnitude 1 17

/-- Positional text: never an exponent, and no point after an integer. -/
def plain {F : FloatFormat} : Binary F → List Char
  | nan => ['N', 'a', 'N']
  | infinite s => (if s then ['-'] else []) ++ ['i', 'n', 'f']
  | finite s m e _ =>
    (if s then ['-'] else []) ++
      if m = 0 then ['0'] else (shortest F .up m e).positional []

/-- The text of a finite number in a data file: always with a point or an exponent, the latter
below `10 ^ -5` and from `10 ^ 16` on. -/
def dataText? {F : FloatFormat} : Binary F → Option (List Char)
  | finite s m e _ =>
    let x := shortest F .even m e
    let body :=
      if m = 0 then ['0', '.', '0']
      else if -5 < x.pointPlace ∧ x.pointPlace ≤ 16 then x.positional ['.', '0']
      else x.exponential
    some ((if s then ['-'] else []) ++ body)
  | _ => none

/-- The number nearest to `±significand · 10 ^ exponent`.  No finite number of the formats has
more than 400 digits on either side of the point. -/
def ofDecimal (F : FloatFormat) (negative : Bool) (significand : Nat) (exponent : Int) :
    Binary F :=
  let place := (Text.digits significand).length + exponent
  if significand = 0 ∨ place < -400 then zero F negative
  else if 400 < place then infinite negative
  else if 0 ≤ exponent then ofRatio F negative (significand * tenTo exponent.toNat) 1
  else ofRatio F negative significand (tenTo (-exponent).toNat)

/-- Why a text is no number. -/
inductive Fault where
  | noText
  | notANumber
deriving Repr, DecidableEq

/-- The text of a fault. -/
def Fault.message : Fault → String
  | noText => "cannot parse float from empty string"
  | notANumber => "invalid float literal"

/-- The exponent of a numeral: nothing, or `e` with an optional sign and digits. -/
def readExponent : List Char → Option Int
  | [] => some 0
  | c :: cs =>
    if c = 'e' ∨ c = 'E' then
      match cs with
      | '+' :: ds => (Text.number? ds).map Int.ofNat
      | '-' :: ds => (Text.number? ds).map fun n => -(n : Int)
      | ds => (Text.number? ds).map Int.ofNat
    else none

/-- A numeral without sign. -/
def readMagnitude (F : FloatFormat) (negative : Bool) (cs : List Char) : Option (Binary F) :=
  let whole := cs.takeWhile Char.isDigit
  let afterWhole := cs.dropWhile Char.isDigit
  let fraction := match afterWhole with
    | '.' :: ds => ds.takeWhile Char.isDigit
    | _ => []
  let rest := match afterWhole with
    | '.' :: ds => ds.dropWhile Char.isDigit
    | ds => ds
  if whole = [] ∧ fraction = [] then none
  else (readExponent rest).map fun e =>
    ofDecimal F negative (Text.number (whole ++ fraction)) (e - fraction.length)

/-- A number without sign: a numeral or a name, the letters of which may be of either case. -/
def readUnsigned (F : FloatFormat) (negative : Bool) (cs : List Char) : Option (Binary F) :=
  let name := String.ofList (cs.map Char.toLower)
  if name = "nan" then some nan
  else if name = "inf" ∨ name = "infinity" then some (infinite negative)
  else readMagnitude F negative cs

/-- Reads a number with an optional sign. -/
def read (F : FloatFormat) : List Char → Except Fault (Binary F)
  | [] => .error .noText
  | '+' :: cs => ((readUnsigned F false cs).map Except.ok).getD (.error .notANumber)
  | '-' :: cs => ((readUnsigned F true cs).map Except.ok).getD (.error .notANumber)
  | cs => ((readUnsigned F false cs).map Except.ok).getD (.error .notANumber)

end Binary

end RecordFilter
