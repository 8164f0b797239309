import RecordFilter.Proofs.Coercion.Kinds
import RecordFilter.Proofs.Number.Reading
import RecordFilter.Proofs.Outcome

/-!
# Integers as arguments

An integer can be given as a number with a sign, as one without, or as an atomic value of any kind
that it belongs to.  What it becomes depends on the integer alone (`integerOutcome`): itself in the
kinds whose bounds it keeps and as a decimal, its digits, or the character with this code point.
Its digits become the same integer and the same decimal.

* `Raw.coerce_of_isInteger`: all arguments that are one integer have one outcome.
* `Scalar.codePoint_eq_ok_iff`: which integers are characters.
* `Raw.coerce_digits_integer`, `Raw.coerce_digits_decimal`: what the digits of an integer become.
* `Raw.isInteger_exact`: integers become exactly what they are.
-/

namespace RecordFilter

open Text

/-- The categories of numbers that are held exactly: fixed-width integers and decimals. -/
def Category.isExact : Category → Bool
  | .integer _ | .decimal => true
  | _ => false

/-- Numbers and texts are converted to numbers that are held exactly. -/
theorem ValueForm.not_excludes_of_isExact {form : ValueForm} {c : Category}
    (hform : form = .number ∨ form = .text) (hc : c.isExact = true) : ¬ form.Excludes c := by
  rcases hform with rfl | rfl
  · cases c with
    | integer k => simp [Excludes, Category.isTemporal]
    | decimal => simp [Excludes, Category.isTemporal]
    | _ => cases hc
  · exact id

namespace Text

/-- The digits of an integer are its numeral. -/
theorem ofList_signedDigits (n : Int) : String.ofList (signedDigits n) = toString n := by
  cases n with
  | ofNat m => rfl
  | negSucc m =>
      have hneg : Int.negSucc m < 0 := Int.negSucc_lt_zero m
      have htext : toString (Int.negSucc m) = "-" ++ String.ofList (digits (m + 1)) := rfl
      rw [signedDigits, if_pos hneg, htext, String.ofList_cons]
      rfl

/-- No blank stands around the decimal text of an integer. -/
theorem trimChars_toString (n : Int) : trimChars (toString n).toList = signedDigits n := by
  rw [← ofList_signedDigits, String.toList_ofList]
  exact trimChars_of_visible fun _ => IntKind.isVisible_of_mem_signedDigits

end Text

/-! ### Scalars -/

namespace Scalar

/-- A kind of integers is reduced to a number with or without sign, of the same value. -/
theorem ofFixed_eq (k : IntKind) (i : k.Value) :
    (∃ h, ofFixed k i = .int ⟨i.1, h⟩) ∨ ∃ h, ofFixed k i = .uint ⟨i.1, h⟩ := by
  cases k with
  | int8 | int16 | int32 | int64 => exact .inl ⟨_, rfl⟩
  | uint8 | uint16 | uint32 | uint64 => exact .inr ⟨_, rfl⟩

/-- An integer is a character if it is the code point of one. -/
theorem codePoint_eq_ok_iff {n : Int} {a : Atom} :
    codePoint n = .ok a ↔ ∃ ch : Char, (ch.toNat : Int) = n ∧ a = .char ch := by
  rw [codePoint]
  constructor
  · intro h
    split at h
    · rename_i hvalid
      cases h
      have hcode : (Char.ofNat n.toNat).toNat = n.toNat := by
        rw [Char.ofNat, dif_pos hvalid.2]
        rfl
      exact ⟨Char.ofNat n.toNat, by omega, rfl⟩
    · cases h
  · rintro ⟨ch, rfl, rfl⟩
    rw [if_pos ⟨Int.natCast_nonneg _, ch.valid⟩, Int.toNat_natCast, Char.ofNat_toNat]

end Scalar

namespace Raw

/-- The arguments that are an integer. -/
inductive IsInteger : Raw → Int → Prop where
  | int (i : IntKind.int64.Value) : IsInteger (.scalar (.int i)) i.1
  | uint (i : IntKind.uint64.Value) : IsInteger (.scalar (.uint i)) i.1
  | native (k : IntKind) (i : k.Value) : IsInteger (.native (.integer k i)) i.1

/-- The outcome of a coercion of an integer. -/
def integerOutcome (n : Int) (c : Category) : Except CoercionError (Option Atom) :=
  conclude (String.ofList (signedDigits n)) "number" c (Scalar.ofInteger n c)

/-- An integer of a kind is coerced to its own kind as it is. -/
theorem integerOutcome_self {k : IntKind} (i : k.Value) :
    integerOutcome i.1 (.integer k) = .ok (some (.integer k i)) := by
  have hfit : k.fit i.1 = .ok i := IntKind.fit_eq_ok_iff.mpr rfl
  rw [integerOutcome, Scalar.ofInteger, hfit]
  rfl

theorem coerce_int (i : IntKind.int64.Value) (c : Category) (required : Bool) :
    (scalar (.int i)).coerce c required = integerOutcome i.1 c := coerce_scalar _ c required

theorem coerce_uint (i : IntKind.uint64.Value) (c : Category) (required : Bool) :
    (scalar (.uint i)).coerce c required = integerOutcome i.1 c := coerce_scalar _ c required

/-- An integer of a fixed kind is coerced by its value, whatever the kind. -/
theorem coerce_ofFixed (k : IntKind) (i : k.Value) (c : Category) (required : Bool) :
    (scalar (.ofFixed k i)).coerce c required = integerOutcome i.1 c := by
  rcases Scalar.ofFixed_eq k i with ⟨_, h⟩ | ⟨_, h⟩
  · rw [h, coerce_int]
  · rw [h, coerce_uint]

/-- All arguments that are one integer have one outcome. -/
theorem coerce_of_isInteger {raw : Raw} {n : Int} (h : raw.IsInteger n) (c : Category)
    (required : Bool) : raw.coerce c required = integerOutcome n c := by
  cases h with
  | int i => exact coerce_int i c required
  | uint i => exact coerce_uint i c required
  | native k i =>
      by_cases hc : (Atom.integer k i).category = c
      · rw [coerce_native_self hc, ← hc]
        exact (integerOutcome_self i).symm
      · rw [coerce_native hc]
        exact coerce_ofFixed k i c required

theorem IsInteger.isComposite {raw : Raw} {n : Int} (h : raw.IsInteger n) :
    raw.isComposite = false := by
  cases h with
  | _ => rfl

/-- An integer that is converted is converted as a number. -/
theorem IsInteger.form_eq {raw : Raw} {n : Int} (h : raw.IsInteger n) {c : Category}
    {form : ValueForm} (hform : raw.form? c = some form) : form = .number := by
  cases h with
  | int i | uint i => cases hform; rfl
  | native k i =>
      rw [form?] at hform
      split at hform
      · cases hform
      · cases hform; rfl

/-- The integers that arguments are have at most 64 bits. -/
theorem IsInteger.natAbs_lt {raw : Raw} {n : Int} (h : raw.IsInteger n) :
    n.natAbs < Decimal.bound := by
  have hbound : Decimal.bound = 79228162514264337593543950336 := rfl
  cases h with
  | int i | uint i =>
      have hi := i.2
      simp only [IntKind.least, IntKind.greatest] at hi
      omega
  | native k i =>
      have hi := i.2
      cases k <;> simp only [IntKind.least, IntKind.greatest] at hi <;> omega

/-! ### Outcomes -/

theorem conclude_eq_ok {rendered kind : String} {c : Category}
    {x : Option (Except CoercionReason Atom)} {v : Option Atom} :
    conclude rendered kind c x = .ok v ↔ ∃ a, x = some (.ok a) ∧ v = some a := by
  rcases x with _ | reason | a
  · simp [conclude]
  · simp [conclude]
  · simp [conclude, eq_comm]

/-- An integer is fitted into the kinds whose bounds it keeps. -/
theorem fit_outcome {k : IntKind} {n : Int} {a : Atom} :
    ((k.fit n).map (Atom.integer k)).mapError CoercionReason.integer = .ok a ↔
      ∃ h : k.least ≤ n ∧ n ≤ k.greatest, a = .integer k ⟨n, h⟩ := by
  rw [Outcome.mapError_eq_ok, Outcome.map_eq_ok]
  constructor
  · rintro ⟨i, hi, rfl⟩
    cases IntKind.fit_eq_ok_iff.mp hi
    exact ⟨i.2, rfl⟩
  · rintro ⟨h, rfl⟩
    exact ⟨⟨n, h⟩, IntKind.fit_eq_ok_iff.mpr rfl, rfl⟩

/-- What an integer becomes in each category that has integers, and as a character. -/
theorem integerOutcome_integer {n : Int} {k : IntKind} {v : Option Atom} :
    integerOutcome n (.integer k) = .ok v ↔
      ∃ h : k.least ≤ n ∧ n ≤ k.greatest, v = some (.integer k ⟨n, h⟩) := by
  rw [integerOutcome, conclude_eq_ok, Scalar.ofInteger]
  simp only [Option.some_inj, fit_outcome]
  constructor
  · rintro ⟨_, ⟨h, rfl⟩, rfl⟩
    exact ⟨h, rfl⟩
  · rintro ⟨h, rfl⟩
    exact ⟨_, ⟨h, rfl⟩, rfl⟩

/-- An integer is coerced to the character with that code point, if there is one. -/
theorem integerOutcome_char {n : Int} {v : Option Atom} :
    integerOutcome n .char = .ok v ↔
      ∃ ch : Char, (ch.toNat : Int) = n ∧ v = some (.char ch) := by
  rw [integerOutcome, conclude_eq_ok, Scalar.ofInteger]
  simp only [Option.some_inj, Scalar.codePoint_eq_ok_iff]
  constructor
  · rintro ⟨_, ⟨ch, h, rfl⟩, rfl⟩
    exact ⟨ch, h, rfl⟩
  · rintro ⟨ch, h, rfl⟩
    exact ⟨_, ⟨ch, h, rfl⟩, rfl⟩

theorem integerOutcome_string (n : Int) :
    integerOutcome n .string = .ok (some (.string (toString n))) := by
  rw [integerOutcome, Scalar.ofInteger, ofList_signedDigits]
  rfl

/-! ### Digits -/

/-- The digits of an integer become the integer, in the kinds whose bounds it keeps. -/
theorem coerce_digits_integer {n : Int} {k : IntKind} {required : Bool} {v : Option Atom} :
    (scalar (.text (toString n))).coerce (.integer k) required = .ok v ↔
      integerOutcome n (.integer k) = .ok v := by
  rw [coerce_scalar, conclude_eq_ok, integerOutcome, conclude_eq_ok, Scalar.convert?,
    Scalar.ofText, Scalar.ofInteger, trimChars_toString]
  simp only [Option.some_inj, Outcome.mapError_eq_ok, Outcome.map_eq_ok,
    IntKind.read_signedDigits_iff, IntKind.fit_eq_ok_iff]

/-- As a decimal an integer of at most 96 bits is itself without places, and so are its digits. -/
theorem coerce_digits_decimal {n : Int} (h : n.natAbs < Decimal.bound) (required : Bool) :
    ∃ d : Decimal, integerOutcome n .decimal = .ok (some (.decimal d)) ∧ d.signed = n ∧
      d.scale = 0 ∧
      (scalar (.text (toString n))).coerce .decimal required = .ok (some (.decimal d)) := by
  obtain ⟨d, hd, hsigned, hscale, hread⟩ := Decimal.exists_ofInt? h
  refine ⟨d, ?_, hsigned, hscale, ?_⟩
  · rw [integerOutcome, Scalar.ofInteger, hd]
    rfl
  · rw [coerce_scalar, Scalar.convert?, Scalar.ofText, trimChars_toString, hread]
    rfl

/-! ### Exactness -/

/-- Two coercions result in one value, or fail with one code. -/
inductive SameValueOrCode :
    Except CoercionError (Option Atom) → Except CoercionError (Option Atom) → Prop where
  | value (v : Option Atom) : SameValueOrCode (.ok v) (.ok v)
  | code {e e' : CoercionError} : e.code = e'.code → SameValueOrCode (.error e) (.error e')

/-- Outcomes with the same successes and the same codes are alike. -/
theorem sameValueOrCode {x y : Except CoercionError (Option Atom)}
    (hvalue : ∀ v, x = .ok v ↔ y = .ok v)
    (hcode : ∀ e e', x = .error e → y = .error e' → e.code = e'.code) : SameValueOrCode x y := by
  cases x with
  | ok v =>
      rw [(hvalue v).mp rfl]
      exact .value v
  | error e =>
      cases y with
      | ok v => exact nomatch (hvalue v).mpr rfl
      | error e' => exact .code (hcode e e' rfl rfl)

/-- The digits of an integer become what the integer becomes. -/
theorem coerce_digits {raw : Raw} {n : Int} (h : raw.IsInteger n) {c : Category}
    (hc : c.isExact = true) (required : Bool) :
    SameValueOrCode ((scalar (.text (toString n))).coerce c required) (raw.coerce c required) := by
  refine sameValueOrCode (fun v => ?_) fun e e' he he' => ?_
  · rw [coerce_of_isInteger h]
    cases c with
    | integer k => exact coerce_digits_integer
    | decimal =>
        obtain ⟨d, hd, -, -, hdigits⟩ := coerce_digits_decimal h.natAbs_lt required
        rw [hd, hdigits]
    | _ => cases hc
  · have hdigits : e.code = "TYPE_CONVERSION" := code_of_included he rfl fun form hform =>
      ValueForm.not_excludes_of_isExact (.inr (Option.some_inj.mp hform).symm) hc
    have hraw : e'.code = "TYPE_CONVERSION" := code_of_included he' h.isComposite fun form hform =>
      ValueForm.not_excludes_of_isExact (.inl (h.form_eq hform)) hc
    rw [hdigits, hraw]

/-- What an argument that is an integer becomes. -/
structure ConvertsExactly (raw : Raw) (n : Int) (required : Bool) : Prop where
  /-- Itself in the kinds whose bounds it keeps, and nothing in the others. -/
  integer : ∀ k v, raw.coerce (.integer k) required = .ok v ↔
    ∃ h : k.least ≤ n ∧ n ≤ k.greatest, v = some (.integer k ⟨n, h⟩)
  /-- Itself as a decimal without places. -/
  decimal : ∃ d : Decimal, raw.coerce .decimal required = .ok (some (.decimal d)) ∧
    d.signed = n ∧ d.scale = 0
  /-- Its digits as a text. -/
  string : raw.coerce .string required = .ok (some (.string (toString n)))
  /-- The character whose code point it is, if there is one. -/
  char : ∀ v, raw.coerce .char required = .ok v ↔
    ∃ ch : Char, (ch.toNat : Int) = n ∧ v = some (.char ch)
  /-- The same as all arguments that are this integer, in every category. -/
  alike : ∀ other : Raw, other.IsInteger n → ∀ c,
    other.coerce c required = raw.coerce c required
  /-- The same as its digits become. -/
  digits : ∀ c : Category, c.isExact = true →
    SameValueOrCode ((scalar (.text (toString n))).coerce c required) (raw.coerce c required)

/-- **Integers are converted exactly.**  An argument that is an integer becomes just this integer
wherever it belongs, and how it is written makes no difference. -/
theorem isInteger_exact {raw : Raw} {n : Int} (h : raw.IsInteger n) (required : Bool) :
    raw.ConvertsExactly n required where
  integer k v := by rw [coerce_of_isInteger h, integerOutcome_integer]
  decimal := by
    obtain ⟨d, hd, hsigned, hscale, -⟩ := coerce_digits_decimal h.natAbs_lt required
    exact ⟨d, (coerce_of_isInteger h _ _).trans hd, hsigned, hscale⟩
  string := by rw [coerce_of_isInteger h, integerOutcome_string]
  char v := by rw [coerce_of_isInteger h, integerOutcome_char]
  alike other hother c := by rw [coerce_of_isInteger h, coerce_of_isInteger hother]
  digits c hc := coerce_digits h hc required

/-- An integer just beyond the numbers with a sign, as a number and as an atomic value. -/
def beyondSigned : IntKind.uint64.Value := ⟨9223372036854775808, by decide⟩

/-- It is coerced exactly wherever it belongs, which is not among the integers with a sign. -/
theorem beyondSigned_exact :
    (scalar (.uint beyondSigned)).IsInteger beyondSigned.1 ∧
      (scalar (.uint beyondSigned)).ConvertsExactly beyondSigned.1 true ∧
      (∀ v, (scalar (.uint beyondSigned)).coerce (.integer .int64) true ≠ .ok v) ∧
      (native (.integer .uint64 beyondSigned)).coerce (.integer .int64) true =
        (scalar (.uint beyondSigned)).coerce (.integer .int64) true := by
  have hexact := isInteger_exact (.uint beyondSigned) true
  refine ⟨.uint beyondSigned, hexact, fun v hv => ?_, hexact.alike _ (.native _ _) _⟩
  obtain ⟨hbounds, -⟩ := (hexact.integer .int64 v).mp hv
  exact absurd hbounds.2 (by decide)

end Raw

end RecordFilter
