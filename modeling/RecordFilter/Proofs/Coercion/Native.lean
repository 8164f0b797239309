import RecordFilter.Proofs.Coercion.Integers

/-!
# Atomic values as data

An atomic value is a truth value, a number or its canonical text in data.  Read as an argument, this
is not always the scalar that the value itself is reduced to: a number without a sign that is small
enough comes back as one with a sign.  No coercion tells the two apart (`coerce_reduced`), so an
atomic value other than a binary number has one outcome, given as such or as data.  Only in its own
category the value itself is taken as it is, and the data as the value that they are read as.

* `Raw.coerce_ofData`: the two outcomes are equal, or the value and the value that its text names.
* `Raw.coerce_nativeOrData`: the two outcomes are alike where the text names the same value.
-/

namespace RecordFilter.Raw

/-- The argument that an atomic value is after a trip through data. -/
def ofData (a : Atom) : Raw := ofJson (native a).toJson

/-- An integer comes back from data as the same integer. -/
theorem isInteger_ofData (k : IntKind) (i : k.Value) : (ofData (.integer k i)).IsInteger i.1 := by
  have hdata : ofData (.integer k i) = scalar (.ofNumber (.integer ⟨i.1, _⟩)) := rfl
  rw [hdata, Scalar.ofNumber]
  split
  · exact .int _
  · exact .uint _

/-- What an atomic value is reduced to, and what it is in data, are coerced alike. -/
theorem coerce_reduced {a : Atom} (hsingle : a.category ≠ .float32)
    (hdouble : a.category ≠ .float64) (c : Category) (required : Bool) :
    (ofData a).coerce c required = (scalar (Scalar.ofAtom a)).coerce c required := by
  cases a with
  | integer k i =>
      -- The two can be different scalars here, but they are one integer.
      rw [coerce_of_isInteger (isInteger_ofData k i)]
      exact (coerce_ofFixed k i c required).symm
  | float32 x => exact absurd rfl hsingle
  | float64 x => exact absurd rfl hdouble
  | _ => rfl

/-- In its own category an atomic value is read back as itself, or as what its text is read as. -/
theorem coerce_reduced_self {v w : Atom} {required required' : Bool}
    (hsingle : v.category ≠ .float32) (hdouble : v.category ≠ .float64)
    (hback : (scalar (.text v.text)).coerce v.category required' = .ok (some w)) :
    (scalar (Scalar.ofAtom v)).coerce v.category required = .ok (some v) ∨
      (scalar (Scalar.ofAtom v)).coerce v.category required = .ok (some w) := by
  cases v with
  | boolean b => exact .inl rfl
  | integer k i => exact .inl ((coerce_ofFixed k i _ required).trans (integerOutcome_self i))
  | float32 x => exact absurd rfl hsingle
  | float64 x => exact absurd rfl hdouble
  | _ => exact .inr hback

/-- The outcomes of an atomic value and of its data are equal, or in its own category they are the
value and what its text is read as. -/
theorem coerce_ofData {v w : Atom} {required' : Bool} (hsingle : v.category ≠ .float32)
    (hdouble : v.category ≠ .float64)
    (hback : (scalar (.text v.text)).coerce v.category required' = .ok (some w)) (c : Category)
    (required : Bool) :
    (ofData v).coerce c required = (native v).coerce c required ∨
      c = v.category ∧ (native v).coerce c required = .ok (some v) ∧
        (ofData v).coerce c required = .ok (some w) := by
  rw [coerce_reduced hsingle hdouble]
  by_cases hc : v.category = c
  · subst hc
    rw [coerce_native_self rfl]
    rcases coerce_reduced_self hsingle hdouble hback with hself | htext
    · exact .inl hself
    · exact .inr ⟨rfl, rfl, htext⟩
  · exact .inl (coerce_native hc required).symm

/-- Two coercions have one outcome, or result in values that are the same. -/
inductive Alike :
    Except CoercionError (Option Atom) → Except CoercionError (Option Atom) → Prop where
  | identical (x : Except CoercionError (Option Atom)) : Alike x x
  | same {a b : Atom} : a.same b = true → Alike (.ok (some a)) (.ok (some b))

/-- **As such or as data.**  An atomic value other than a binary number whose canonical text is read
back as the same value has one outcome in every category, given as such or as data.  Only in its own
category the two can be the same value in two forms. -/
theorem coerce_nativeOrData {v w : Atom} {required' : Bool} (hsingle : v.category ≠ .float32)
    (hdouble : v.category ≠ .float64)
    (hback : (scalar (.text v.text)).coerce v.category required' = .ok (some w))
    (hsame : v.same w = true) (c : Category) (required : Bool) :
    Alike ((native v).coerce c required) ((ofJson (native v).toJson).coerce c required) ∧
      (c ≠ v.category ∨ v = w →
        (ofJson (native v).toJson).coerce c required = (native v).coerce c required) := by
  rcases coerce_ofData hsingle hdouble hback c required with heq | ⟨hc, hnative, hdata⟩
  · refine ⟨?_, fun _ => heq⟩
    rw [← heq]
    exact .identical _
  · refine ⟨?_, fun hform => ?_⟩
    · rw [hnative]
      exact hdata ▸ .same hsame
    · rcases hform with hne | rfl
      · exact absurd hc hne
      · exact hdata.trans hnative.symm

/-- A negative zero, whose text is read without the sign. -/
def negativeZero : Decimal := ⟨true, 0, 1, by decide, by decide⟩

/-- As data it loses its sign; where it is coerced to is the same but for that. -/
theorem negativeZero_data :
    (scalar (.text (Atom.decimal negativeZero).text)).coerce .decimal true =
        .ok (some (.decimal negativeZero.unsignedZero)) ∧
      (Atom.decimal negativeZero).same (.decimal negativeZero.unsignedZero) = true ∧
      Alike ((native (.decimal negativeZero)).coerce .decimal false)
        ((ofJson (native (.decimal negativeZero)).toJson).coerce .decimal false) ∧
      (ofJson (native (.decimal negativeZero)).toJson).coerce (.integer .int8) false =
        (native (.decimal negativeZero)).coerce (.integer .int8) false := by
  have hback : (scalar (.text (Atom.decimal negativeZero).text)).coerce .decimal true =
      .ok (some (.decimal negativeZero.unsignedZero)) := by rfl
  have hsame : (Atom.decimal negativeZero).same (.decimal negativeZero.unsignedZero) = true := by
    decide
  have halike := coerce_nativeOrData (by decide) (by decide) hback hsame
  exact ⟨hback, hsame, (halike .decimal false).1,
    (halike (.integer .int8) false).2 (.inl (by decide))⟩

end RecordFilter.Raw
