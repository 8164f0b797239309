import RecordFilter.Text.Digits

/-!
# Integers of a fixed width

An `IntKind` names a width and a sign; its values are the integers within its bounds.  `fit` takes
an integer that lies within them, and `read` a numeral: its faults are found from the left, so the
first character that is no digit, or that leaves the bounds, decides.
-/

namespace RecordFilter

/-- The kinds of fixed-width integers. -/
inductive IntKind where
  | int8 | int16 | int32 | int64 | uint8 | uint16 | uint32 | uint64
deriving Repr, DecidableEq

namespace IntKind

/-- The least value. -/
def least : IntKind → Int
  | int8 => -128
  | int16 => -32768
  | int32 => -2147483648
  | int64 => -9223372036854775808
  | uint8 | uint16 | uint32 | uint64 => 0

/-- The greatest value. -/
def greatest : IntKind → Int
  | int8 => 127
  | int16 => 32767
  | int32 => 2147483647
  | int64 => 9223372036854775807
  | uint8 => 255
  | uint16 => 65535
  | uint32 => 4294967295
  | uint64 => 18446744073709551615

/-- Whether negative values belong to the kind. -/
def isSigned : IntKind → Bool
  | int8 | int16 | int32 | int64 => true
  | uint8 | uint16 | uint32 | uint64 => false

/-- The integers within the bounds of a kind. -/
abbrev Value (k : IntKind) : Type := { i : Int // k.least ≤ i ∧ i ≤ k.greatest }

/-- A value of a kind as one of a kind with wider bounds. -/
def Value.widen {k l : IntKind} (h : l.least ≤ k.least ∧ k.greatest ≤ l.greatest)
    (i : k.Value) : l.Value :=
  ⟨i.1, Int.le_trans h.1 i.2.1, Int.le_trans i.2.2 h.2⟩

/-- Zero belongs to every kind. -/
def zero (k : IntKind) : k.Value := ⟨0, by cases k <;> decide⟩

end IntKind

/-- Why no integer of a kind results. -/
inductive IntFault where
  | noText
  | notADigit
  | tooLarge
  | tooSmall
deriving Repr, DecidableEq

/-- The text of a fault. -/
def IntFault.message : IntFault → String
  | noText => "cannot parse integer from empty string"
  | notADigit => "invalid digit found in string"
  | tooLarge => "number too large to fit in target type"
  | tooSmall => "number too small to fit in target type"

namespace IntKind

/-- Takes an integer that lies within the bounds. -/
def fit (k : IntKind) (i : Int) : Except IntFault k.Value :=
  if h : i < k.least then .error .tooSmall
  else if h' : k.greatest < i then .error .tooLarge
  else .ok ⟨i, Int.not_lt.1 h, Int.not_lt.1 h'⟩

/-- Appends the digits of a numeral to the value read so far. -/
def readDigits (k : IntKind) (negative : Bool) : k.Value → List Char → Except IntFault k.Value
  | value, [] => .ok value
  | value, c :: cs =>
    match Text.digit? c with
    | none => .error .notADigit
    | some d =>
      match k.fit (if negative then value.1 * 10 - d else value.1 * 10 + d) with
      | .error fault => .error fault
      | .ok next => readDigits k negative next cs

/-- Reads a numeral with an optional sign; `-` belongs to signed kinds only. -/
def read (k : IntKind) : List Char → Except IntFault k.Value
  | [] => .error .noText
  | ['+'] | ['-'] => .error .notADigit
  | '+' :: cs => k.readDigits false k.zero cs
  | '-' :: cs =>
    if k.isSigned then k.readDigits true k.zero cs else .error .notADigit
  | cs => k.readDigits false k.zero cs

theorem fit_eq_ok_iff {k : IntKind} {i : Int} {v : k.Value} : k.fit i = .ok v ↔ v.1 = i := by
  constructor
  · intro h
    simp only [fit] at h
    split at h
    · contradiction
    · split at h
      · contradiction
      · cases h; rfl
  · rintro rfl
    simp [fit, Int.not_lt.2 v.2.1, Int.not_lt.2 v.2.2]

end IntKind

end RecordFilter
