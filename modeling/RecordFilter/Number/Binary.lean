import RecordFilter.Number.Power

/-!
# Binary floating point numbers

A `FloatFormat` fixes how many bits a significand has and how far the exponent reaches.  The
numbers of a format are exact: a finite one is `±significand · 2 ^ exponent` with its one
canonical pair of significand and exponent.  `ofRatio` rounds a quotient to the nearest number,
a tie going to the even significand; every conversion is `ofRatio` of an exact quotient.
-/

namespace RecordFilter

/-- The shape of a binary format: bits of a significand, least and greatest exponent. -/
structure FloatFormat where
  precision : Nat
  leastExponent : Int
  greatestExponent : Int
deriving Repr, DecidableEq

namespace FloatFormat

/-- The format of 32 bits. -/
def single : FloatFormat := ⟨24, -149, 104⟩

/-- The format of 64 bits. -/
def double : FloatFormat := ⟨53, -1074, 971⟩

/-- The one pair that stands for each finite magnitude: the significand has all its bits unless
the exponent is the least. -/
def Canonical (F : FloatFormat) (significand : Nat) (exponent : Int) : Prop :=
  significand < twoTo F.precision ∧ F.leastExponent ≤ exponent ∧ exponent ≤ F.greatestExponent ∧
    (twoTo (F.precision - 1) ≤ significand ∨ exponent = F.leastExponent)

instance (F : FloatFormat) (m : Nat) (e : Int) : Decidable (F.Canonical m e) := by
  unfold Canonical; infer_instance

/-- The exponent that gives `num / den` a significand of full length. -/
def exponentOf (F : FloatFormat) (num den : Nat) : Int :=
  let a := num.log2
  let b := den.log2
  let floorLog : Int := if den * twoTo a ≤ num * twoTo b then (a : Int) - b else (a : Int) - b - 1
  floorLog - F.precision + 1

end FloatFormat

/-- The quotient rounded to the nearest natural number, a tie to the even one. -/
def roundHalfEven (num den : Nat) : Nat :=
  let q := num / den
  let r := num % den
  if den < 2 * r ∨ (2 * r = den ∧ q % 2 = 1) then q + 1 else q

/-- The numbers of a binary format. -/
inductive Binary (F : FloatFormat) where
  | nan
  | infinite (negative : Bool)
  | finite (negative : Bool) (significand : Nat) (exponent : Int)
      (canonical : F.Canonical significand exponent)
deriving DecidableEq

/-- The numbers of 32 bits. -/
abbrev Single := Binary .single

/-- The numbers of 64 bits. -/
abbrev Double := Binary .double

namespace Binary

variable {F : FloatFormat}

/-- The number with this significand and exponent; beyond the greatest exponent it is infinite. -/
def ofCanonical (F : FloatFormat) (negative : Bool) (significand : Nat) (exponent : Int) :
    Binary F :=
  if h : F.Canonical significand exponent then .finite negative significand exponent h
  else .infinite negative

/-- Zero, with a sign. -/
def zero (F : FloatFormat) (negative : Bool) : Binary F :=
  ofCanonical F negative 0 F.leastExponent

/-- The number nearest to `±num / den`. -/
def ofRatio (F : FloatFormat) (negative : Bool) (num den : Nat) : Binary F :=
  if num = 0 then zero F negative
  else
    let e := max (F.exponentOf num den) F.leastExponent
    let q := if 0 ≤ e then roundHalfEven num (den * twoTo e.toNat)
      else roundHalfEven (num * twoTo (-e).toNat) den
    if q = twoTo F.precision then ofCanonical F negative (twoTo (F.precision - 1)) (e + 1)
    else ofCanonical F negative q e

/-- The number nearest to `±significand · 2 ^ exponent`. -/
def ofScaled (F : FloatFormat) (negative : Bool) (significand : Nat) (exponent : Int) : Binary F :=
  if 0 ≤ exponent then ofRatio F negative (significand * twoTo exponent.toNat) 1
  else ofRatio F negative significand (twoTo (-exponent).toNat)

/-- The number nearest to an integer. -/
def ofInt (F : FloatFormat) (i : Int) : Binary F := ofRatio F (i < 0) i.natAbs 1

/-- The nearest number of another format. -/
def convert (G : FloatFormat) : Binary F → Binary G
  | nan => nan
  | infinite s => infinite s
  | finite s m e _ => ofScaled G s m e

/-- The greatest finite number. -/
def greatest (F : FloatFormat) : Binary F :=
  ofCanonical F false (twoTo F.precision - 1) F.greatestExponent

/-- The magnitude. -/
def abs : Binary F → Binary F
  | nan => nan
  | infinite _ => infinite false
  | finite _ m e h => finite false m e h

/-- Neither infinite nor undefined. -/
def isFinite : Binary F → Bool
  | finite .. => true
  | _ => false

/-- A finite number as a multiple of the least positive one. -/
def units? : Binary F → Option Int
  | finite s m e _ =>
    let n : Int := m * twoTo (e - F.leastExponent).toNat
    some (if s then -n else n)
  | _ => none

/-- The order of two numbers; nothing is comparable with `nan`, and both zeros are equal. -/
def compare? : Binary F → Binary F → Option Ordering
  | nan, _ | _, nan => none
  | infinite s, infinite t => some (Ord.compare t s)
  | infinite s, finite .. => some (if s then .lt else .gt)
  | finite .., infinite t => some (if t then .gt else .lt)
  | x@(finite ..), y@(finite ..) =>
    match x.units?, y.units? with
    | some a, some b => some (Ord.compare a b)
    | _, _ => none

/-- Product, rounded. -/
def mul : Binary F → Binary F → Binary F
  | nan, _ | _, nan => nan
  | infinite s, infinite t => infinite (s != t)
  | infinite s, finite t m _ _ | finite t m _ _, infinite s =>
    if m = 0 then nan else infinite (s != t)
  | finite s m e _, finite t n f _ => ofScaled F (s != t) (m * n) (e + f)

/-- Quotient, rounded. -/
def div : Binary F → Binary F → Binary F
  | nan, _ | _, nan | infinite _, infinite _ => nan
  | infinite s, finite t .. => infinite (s != t)
  | finite s .., infinite t => zero F (s != t)
  | finite s m e _, finite t n f _ =>
    if n = 0 then (if m = 0 then nan else infinite (s != t))
    else if f ≤ e then ofRatio F (s != t) (m * twoTo (e - f).toNat) n
    else ofRatio F (s != t) m (n * twoTo (f - e).toNat)

/-- The integer that a number without a fractional part is. -/
def toInt? : Binary F → Option Int
  | finite s m e _ =>
    let sign (n : Nat) : Int := if s then -(n : Int) else n
    if 0 ≤ e then some (sign (m * twoTo e.toNat))
    else if m % twoTo (-e).toNat = 0 then some (sign (m / twoTo (-e).toNat))
    else none
  | _ => none

end Binary

end RecordFilter
