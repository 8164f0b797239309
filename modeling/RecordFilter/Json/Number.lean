import RecordFilter.Json.Basic
import RecordFilter.Number.Power
import RecordFilter.Number.Shortest

/-!
# Number literals

A literal is an optional minus sign, digits without a leading zero, an optional fraction and an
optional exponent.  Digits are gathered into 64 bits: what does not fit is dropped, before the
point at the price of a power of ten.  A literal without fraction and exponent that fits is an
integer, save `-0`; any other is the gathered digits times a power of ten, each operation rounded.
-/

namespace RecordFilter.Json.Number

/-- What a literal stands for. -/
inductive Reading where
  | value (n : Number)
  /-- A literal of proper form whose value is infinite. -/
  | outOfRange

/-- The greatest number of 64 bits. -/
def mostDigits : Nat := 18446744073709551615

/-- Gathers digits while they fit; returns the number gathered and the digits left over. -/
def gather : Nat → List Char → Nat × List Char
  | acc, [] => (acc, [])
  | acc, c :: cs =>
    let next := acc * 10 + (c.toNat - '0'.toNat)
    if next ≤ mostDigits then gather next cs else (acc, c :: cs)

/-- A finite binary number as a value. -/
def ofDouble (x : Double) : Reading :=
  if h : x.isFinite then .value (.float ⟨x, h⟩) else .outOfRange

/-- A power of ten, rounded. -/
def powerOfTen (n : Nat) : Double := Binary.ofRatio .double false (tenTo n) 1

/-- The greatest power of ten in one operation. -/
def mostPlaces : Nat := 308

/-- Divides by the greatest power of ten so many times, or until nothing is left. -/
def lowerSteps : Nat → Double → Double
  | 0, x => x
  | n + 1, x =>
    if x.units? = some 0 then x else lowerSteps n (x.div (powerOfTen mostPlaces))

/-- Divides by a power of ten, in steps. -/
def lower (x : Double) (places : Nat) : Double :=
  let steps := (places - 1) / mostPlaces
  (lowerSteps steps x).div (powerOfTen (places - steps * mostPlaces))

/-- Negates on demand. -/
def withSign (negative : Bool) : Double → Double
  | .nan => .nan
  | .infinite s => .infinite (s != negative)
  | .finite s m e h => .finite (s != negative) m e h

/-- The value of gathered digits times a power of ten. -/
def scale (negative : Bool) (digits : Nat) (exponent : Int) : Reading :=
  let x := Binary.ofRatio .double false digits 1
  if (mostPlaces : Int) < exponent then
    if digits = 0 then ofDouble (withSign negative x) else .outOfRange
  else if 0 ≤ exponent then ofDouble (withSign negative (x.mul (powerOfTen exponent.toNat)))
  else ofDouble (withSign negative (lower x (-exponent).toNat))

/-- The value without fraction and exponent of digits that fit. -/
def whole (negative : Bool) (digits : Nat) : Reading :=
  let i : Int := if negative then -(digits : Int) else digits
  if h : InBounds i then
    if negative ∧ digits = 0 then ofDouble (Binary.zero .double true)
    else .value (.integer ⟨i, h⟩)
  else ofDouble (Binary.ofRatio .double negative digits 1)

/-- The exponent part of a literal. -/
structure Exponent where
  negative : Bool
  digits : List Char

/-- The exponent part: nothing, or `e`, an optional sign and digits. -/
def exponent? : List Char → Option (Option Exponent)
  | [] => some none
  | c :: cs =>
    if c = 'e' ∨ c = 'E' then
      let (negative, ds) := match cs with
        | '-' :: ds => (true, ds)
        | '+' :: ds => (false, ds)
        | ds => (false, ds)
      if ds ≠ [] ∧ ds.all Char.isDigit then some (some ⟨negative, ds⟩) else none
    else none

/-- The greatest exponent that is reckoned with. -/
def mostExponent : Nat := 2147483647

/-- Gathered digits times the power of ten that the exponent part shifts. -/
def withExponent (negative : Bool) (digits : Nat) (start : Int) : Option Exponent → Reading
  | none => scale negative digits start
  | some e =>
    let n := Text.number e.digits
    if mostExponent < n then
      if digits ≠ 0 ∧ !e.negative then .outOfRange
      else ofDouble (Binary.zero .double negative)
    else scale negative digits (if e.negative then start - n else start + n)

/-- Reads a literal; nothing if it is not of the proper form. -/
def read (cs : List Char) : Option Reading := do
  let (negative, cs) := match cs with
    | '-' :: cs => (true, cs)
    | cs => (false, cs)
  let ds := cs.takeWhile Char.isDigit
  let rest := cs.dropWhile Char.isDigit
  if ds = [] ∨ (ds.head? = some '0' ∧ ds ≠ ['0']) then none
  let (digits, extra) := gather 0 ds
  match rest with
  | '.' :: rest =>
    let fs := rest.takeWhile Char.isDigit
    if fs = [] then none
    let (digits, left) := gather digits fs
    let places : Int := fs.length - left.length
    let e ← exponent? (rest.dropWhile Char.isDigit)
    return withExponent negative digits (extra.length - places) e
  | rest =>
    let e ← exponent? rest
    match e with
    | none =>
      return if extra = [] then whole negative digits
        else scale negative digits extra.length
    | some e => return withExponent negative digits extra.length (some e)

/-- The text of a number. -/
def text : Number → List Char
  | .integer i => Text.signedDigits i.1
  | .float x => (Binary.dataText? x.1).getD []

end RecordFilter.Json.Number
