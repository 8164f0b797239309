/-!
# Decimal digits

Numerals are written most significant digit first.  `digits` and `number` are inverse to each
other on numerals without leading zeros; `padded` fills up to a width with zeros; `hex` writes
lower-case hexadecimal.
-/

namespace RecordFilter.Text

/-- The digit a character stands for. -/
def digit? (c : Char) : Option Nat :=
  if c.isDigit then some (c.toNat - '0'.toNat) else none

/-- The numeral of `n`. -/
def digits (n : Nat) : List Char := Nat.toDigits 10 n

/-- The number that a list of digits stands for; the empty list stands for zero. -/
def number (cs : List Char) : Nat := Nat.ofDigitChars 10 cs 0

/-- The number written by one or more digits and nothing else. -/
def number? (cs : List Char) : Option Nat :=
  if cs ≠ [] ∧ cs.all Char.isDigit then some (number cs) else none

/-- The numeral of `n`, filled with zeros in front up to `width` characters. -/
def padded (width n : Nat) : List Char :=
  List.replicate (width - (digits n).length) '0' ++ digits n

/-- The lower-case hexadecimal numeral of `n`. -/
def hex (n : Nat) : List Char := Nat.toDigits 16 n

/-- The numeral of an integer, with `-` in front of a negative one. -/
def signedDigits (i : Int) : List Char :=
  if i < 0 then '-' :: digits i.natAbs else digits i.natAbs

theorem number_digits (n : Nat) : number (digits n) = n :=
  Nat.ofDigitChars_toDigits (by decide) (by decide)

theorem isDigit_of_mem_digits {n : Nat} {c : Char} (h : c ∈ digits n) : c.isDigit :=
  Nat.isDigit_of_mem_toDigits (by decide) (by decide) h

theorem digits_ne_nil (n : Nat) : digits n ≠ [] := Nat.toDigits_ne_nil

theorem number?_digits (n : Nat) : number? (digits n) = some n := by
  have hall : (digits n).all Char.isDigit = true :=
    List.all_eq_true.2 fun _ h => isDigit_of_mem_digits h
  simp [number?, digits_ne_nil, hall, number_digits]

/-- Leading zeros are read as nothing. -/
theorem number_padded (width n : Nat) : number (padded width n) = n := by
  have h := number_digits n
  simp only [number] at h ⊢
  simp [padded, Nat.ofDigitChars_append, h]

end RecordFilter.Text
