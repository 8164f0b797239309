import RecordFilter.Number.Binary
import RecordFilter.Number.Power
import RecordFilter.Text.Digits

/-!
# Decimal numbers

A `Decimal` is `±coefficient · 10 ^ -scale` with a coefficient of 96 bits and at most 28 places.
The scale belongs to the text of a number (`1.50` keeps its zero) and not to its value:
`Decimal.compare` cross-multiplies the scales away.

Main statements:
* `Decimal.compare_eq_iff`: two decimals compare equal exactly when their cross products do.
-/

namespace RecordFilter

namespace Decimal

/-- Coefficients have 96 bits. -/
abbrev bound : Nat := 0x1000000000000000000000000

end Decimal

/-- A signed coefficient of 96 bits and the number of its decimal places. -/
structure Decimal where
  negative : Bool
  coefficient : Nat
  scale : Nat
  coefficient_lt : coefficient < Decimal.bound
  scale_le : scale ≤ 28
deriving DecidableEq

namespace Decimal

/-- The decimal with these parts, if they are within bounds. -/
def ofParts? (negative : Bool) (coefficient scale : Nat) : Option Decimal :=
  if h : coefficient < bound ∧ scale ≤ 28 then some ⟨negative, coefficient, scale, h.1, h.2⟩
  else none

/-- The decimal without places that an integer is, if it has at most 96 bits. -/
def ofInt? (i : Int) : Option Decimal := ofParts? (i < 0) i.natAbs 0

/-- The coefficient with its sign. -/
def signed (d : Decimal) : Int := if d.negative then -(d.coefficient : Int) else d.coefficient

/-- The order of the values. -/
def compare (a b : Decimal) : Ordering :=
  Ord.compare (a.signed * tenTo b.scale) (b.signed * tenTo a.scale)

/-- Decimals compare as equal where both stand for one number, whatever their scales. -/
theorem compare_eq_iff {a b : Decimal} :
    compare a b = .eq ↔ a.signed * tenTo b.scale = b.signed * tenTo a.scale := by
  unfold compare
  exact Std.compare_eq_iff_eq

/-! ### Text -/

/-- A decimal with all its places. -/
def text (d : Decimal) : List Char :=
  let ds := Text.padded (d.scale + 1) d.coefficient
  let whole := ds.take (ds.length - d.scale)
  let fraction := ds.drop (ds.length - d.scale)
  (if d.negative then ['-'] else []) ++ whole ++
    (if d.scale = 0 then [] else '.' :: fraction)

/-- Why a text is no decimal. -/
inductive Fault where
  | noText
  | noDigits
  | unknownCharacter
  | secondPoint
  | separatorFirst
  | tooManyDigits
  | overflowAfterRounding
  | malformedExponent
  | tooLarge
deriving Repr, DecidableEq

/-- The text of a fault. -/
def Fault.message : Fault → String
  | noText => "Invalid decimal: empty"
  | noDigits => "Invalid decimal: no digits found"
  | unknownCharacter => "Invalid decimal: unknown character"
  | secondPoint => "Invalid decimal: two decimal points"
  | separatorFirst => "Invalid decimal: must start lead with a number"
  | tooManyDigits => "Invalid decimal: overflow from too many digits"
  | overflowAfterRounding => "Invalid decimal: overflow from mantissa after rounding"
  | malformedExponent => "Failed to parse"
  | tooLarge => "Number exceeds maximum value that can be represented."

/-- The fault of a character that cannot stand where it does. -/
def Fault.ofChar (c : Char) : Fault :=
  if c = '.' then .secondPoint else if c = '_' then .separatorFirst else .unknownCharacter

/-- The end of a numeral.  A zero has no sign. -/
def finish (negative : Bool) (coefficient scale : Nat) : Except Fault Decimal :=
  match ofParts? (negative && coefficient != 0) coefficient scale with
  | some d => .ok d
  | none => .error .tooManyDigits

/-- The digits that no place is left for; underscores may stand among them. -/
def excessDigits : List Char → Except Fault (List Nat)
  | [] => .ok []
  | c :: cs =>
    match Text.digit? c with
    | some digit => (excessDigits cs).map (digit :: ·)
    | none => if c = '_' then excessDigits cs else .error (.ofChar c)

/-- Ends a numeral with the first digit that no place is left for.  Five and more round away from
zero; if the coefficient overflows then, one place is given up. -/
def roundAt (negative : Bool) (coefficient scale digit : Nat) : Except Fault Decimal :=
  if digit < 5 then finish negative coefficient scale
  else if coefficient + 1 < bound then finish negative (coefficient + 1) scale
  else if scale = 0 then .error .overflowAfterRounding
  else finish negative ((coefficient + 5) / 10) (scale - 1)

/-- Reads what stands where no place is left.  All of it belongs to the numeral, though only its
first digit counts. -/
def readExcess (negative : Bool) (coefficient scale : Nat) (cs : List Char) :
    Except Fault Decimal :=
  match excessDigits cs with
  | .ok digits => roundAt negative coefficient scale (digits.headD 0)
  | .error fault => .error fault

/-- Reads digits with at most one point; underscores may stand after the first digit. -/
def readDigits (negative : Bool) (seenDigit afterPoint : Bool) (coefficient scale : Nat) :
    List Char → Except Fault Decimal
  | [] => if seenDigit then finish negative coefficient scale else .error .noDigits
  | c :: cs =>
    if afterPoint ∧ scale = 28 then readExcess negative coefficient scale (c :: cs)
    else match Text.digit? c with
      | some digit =>
        if coefficient * 10 + digit < bound then
          readDigits negative true afterPoint (coefficient * 10 + digit)
            (if afterPoint then scale + 1 else scale) cs
        else if afterPoint then readExcess negative coefficient scale (c :: cs)
        else .error .tooManyDigits
      | none =>
        if c = '.' ∧ !afterPoint then readDigits negative seenDigit true coefficient scale cs
        else if c = '_' ∧ seenDigit then
          readDigits negative seenDigit afterPoint coefficient scale cs
        else .error (.ofChar c)

/-- Reads a numeral without exponent. -/
def readPlain : List Char → Except Fault Decimal
  | [] => .error .noText
  | '+' :: cs => readDigits false false false 0 0 cs
  | '-' :: cs => readDigits true false false 0 0 cs
  | cs => readDigits false false false 0 0 cs

/-- Drops the last `n` digits of a coefficient and rounds half up.  No coefficient comes up to half
of `10 ^ 30`, so more than 30 digits leave nothing. -/
def dropDigits (n coefficient : Nat) : Nat :=
  let unit := tenTo (min n 30)
  (coefficient + unit / 2) / unit

/-- Moves the point of a decimal by a power of ten.  Places that there is no room for are rounded
away, as they are in a numeral that writes them out; no coefficient but zero has room for 29 more
digits in front of the point. -/
def shift (d : Decimal) (exponent : Int) : Except Fault Decimal :=
  let scale : Int := d.scale - exponent
  if 28 < scale then finish d.negative (dropDigits (scale - 28).toNat d.coefficient) 28
  else match ofParts? d.negative (d.coefficient * tenTo (min (-scale).toNat 29)) scale.toNat with
    | some d => .ok d
    | none => .error .tooLarge

/-- The exponent of a numeral, after its `e`. -/
def readExponent : List Char → Option Int
  | '-' :: ds => (Text.number? ds).map fun n => -(n : Int)
  | '+' :: ds => (Text.number? ds).map Int.ofNat
  | ds => (Text.number? ds).map Int.ofNat

/-- Reads a decimal: digits with at most one point, then perhaps `e` and an exponent. -/
def read (cs : List Char) : Except Fault Decimal :=
  let isMark (c : Char) := c == 'e' || c == 'E'
  let mantissa := cs.takeWhile fun c => !isMark c
  match cs.dropWhile fun c => !isMark c with
  | [] => readPlain cs
  | _ :: exponent =>
    if mantissa.any Char.isDigit then
      match readPlain mantissa with
      | .error fault => .error fault
      | .ok d =>
        match readExponent exponent with
        | none => .error .malformedExponent
        | some e => d.shift e
    else readPlain cs

/-! ### Binary numbers as decimals

A power of two is exchanged for powers of five and ten, in 96 bits throughout; then the digits
that a number of 53 bits does not carry are rounded away. -/

/-- Multiplies by `5 ^ n` and divides by `2 ^ n` as far as it goes: an even value is halved, which
takes a factor of ten with it, an odd one is multiplied by five, or halved with loss if there is
no room.  Returns the value and the power of ten gained. -/
def exchangeTwos : Nat → Nat → Int → Nat × Int
  | 0, value, ten => (value, ten)
  | n + 1, value, ten =>
    if value % 2 = 0 then exchangeTwos n (value / 2) (ten + 1)
    else if value * 5 < bound then exchangeTwos n (value * 5) ten
    else exchangeTwos n (value / 2) (ten + 1)

/-- Divides by `5 ^ n`: doubles and takes a factor of ten away while there is room, and otherwise
divides with loss. -/
def exchangeFives : Nat → Nat → Int → Nat × Int
  | 0, value, ten => (value, ten)
  | n + 1, value, ten =>
    if value < bound / 2 then exchangeFives n (value * 2) (ten - 1)
    else exchangeFives n (value / 5) ten

/-- Drops `n` decimal places, each rounded half up; a value that vanishes is plain zero. -/
def dropPlaces : Nat → Nat → Nat × Nat
  | 0, value => (value, 28)
  | n + 1, value =>
    if value / 10 = 0 then (0, 0)
    else dropPlaces n (if value % 10 < 5 then value / 10 else value / 10 + 1)

/-- Rounds places away while the value has more than 52 bits. -/
def dropExcess : Nat → Nat → Nat × Nat
  | 0, value => (value, 0)
  | scale + 1, value =>
    if value < 0x10000000000000 then (value, scale + 1)
    else dropExcess scale (if value % 10 < 5 then value / 10 else value / 10 + 1)

/-- Drops trailing zeros after the point. -/
def dropZeros : Nat → Nat → Nat × Nat
  | 0, value => (value, 0)
  | scale + 1, value =>
    if value % 10 = 0 then dropZeros scale (value / 10) else (value, scale + 1)

/-- The decimal for a finite number of 64 bits, if it is not too large. -/
def ofDouble? : Double → Option Decimal
  | .finite negative significand exponent _ =>
    if significand = 0 then ofParts? negative 0 0
    else
      let (value, ten) :=
        if exponent < 0 then exchangeTwos (-exponent).toNat significand exponent
        else exchangeFives exponent.toNat significand exponent
      if 0 < ten then ofParts? negative (value * tenTo ten.toNat) 0
      else
        let (value, scale) :=
          if ten < -28 then dropPlaces (-28 - ten).toNat value else (value, (-ten).toNat)
        let (value, scale) := dropExcess scale value
        let (value, scale) := dropZeros scale value
        ofParts? negative value scale
  | _ => none

end Decimal

end RecordFilter
