import RecordFilter.Proofs.Coercion.Category

/-!
# Outcomes of a coercion by kind

Whether an argument can become a value of a category at all is a matter of its form, and not of what
it holds: `ValueForm.Excludes` is the table.  An atomic value of another category has the form that
it is reduced to, and null, arrays and objects have none.

* `Scalar.convert?_eq_none_iff`, `Raw.ofBytes?_eq_none_iff`: the conversions keep to the table.
* `Raw.coerce_eq_error`: all that a coercion can fail with.
* `Raw.coerce_byKind`: which outcome an argument has, by its form and the category.
-/

namespace RecordFilter

/-! ### Forms -/

/-- The forms of values that are converted. -/
inductive ValueForm where
  | truth
  | number
  | text
  | bytes
deriving DecidableEq

/-- The categories that no value of a form becomes one of. -/
def ValueForm.Excludes : ValueForm → Category → Prop
  | truth, c => c ≠ .boolean ∧ c ≠ .string
  | number, c => c = .boolean ∨ c = .uuid ∨ c.isTemporal = true
  | text, _ => False
  | bytes, c => c ≠ .string ∧ c ≠ .uuid

/-- The form of a scalar. -/
def Scalar.form : Scalar → ValueForm
  | bool _ => .truth
  | int _ | uint _ | float _ => .number
  | text _ => .text

/-- The form that values of a category are reduced to where another category is wanted. -/
def Category.form : Category → ValueForm
  | boolean => .truth
  | integer _ | float32 | float64 => .number
  | char | decimal | string | uuid | date | dateTime | dateTimeOffset | time | timeSpan => .text

namespace Raw

/-- Arrays and objects. -/
def isComposite : Raw → Bool
  | sequence _ | map _ => true
  | null | scalar _ | bytes _ | native _ => false

/-- The form that an argument is converted from.  Null, arrays and objects have none, and an atomic
value of the category that is wanted is not converted. -/
def form? (c : Category) : Raw → Option ValueForm
  | scalar s => some s.form
  | bytes _ => some .bytes
  | native a => if a.category = c then none else some a.category.form
  | null | sequence _ | map _ => none

end Raw

/-! ### Conversions -/

namespace Scalar

/-- An atom that is reduced to a scalar has the form of its category. -/
theorem form_ofAtom (a : Atom) : (ofAtom a).form = a.category.form := by
  cases a with
  | integer k i => cases k <;> rfl
  | _ => rfl

/-- A truth value has no conversion to the categories that its form excludes. -/
theorem ofBool_eq_none_iff {b : Bool} {c : Category} :
    ofBool b c = none ↔ ValueForm.truth.Excludes c := by
  cases c <;> simp [ofBool, ValueForm.Excludes]

theorem ofInteger_eq_none_iff {i : Int} {c : Category} :
    ofInteger i c = none ↔ ValueForm.number.Excludes c := by
  cases c <;> simp [ofInteger, ValueForm.Excludes, Category.isTemporal]

theorem ofFloat_eq_none_iff {x : Double} {c : Category} :
    ofFloat x c = none ↔ ValueForm.number.Excludes c := by
  cases c with
  | float32 =>
      rw [ofFloat]
      split <;> simp [ValueForm.Excludes, Category.isTemporal]
  | _ => simp [ofFloat, ValueForm.Excludes, Category.isTemporal]

/-- A scalar is not converted to the categories that its form excludes, and to no others. -/
theorem convert?_eq_none_iff {s : Scalar} {c : Category} :
    s.convert? c = none ↔ s.form.Excludes c := by
  cases s with
  | bool b => exact ofBool_eq_none_iff
  | int i | uint i => exact ofInteger_eq_none_iff
  | float x => exact ofFloat_eq_none_iff
  | text s => simp [convert?, form, ValueForm.Excludes]

end Scalar

namespace Raw

theorem ofBytes?_eq_none_iff {bs : List UInt8} {c : Category} :
    ofBytes? bs c = none ↔ ValueForm.bytes.Excludes c := by
  cases c <;> simp [ofBytes?, ValueForm.Excludes]

/-- The outcome of a conversion, for an argument that is rendered so and has this kind. -/
def conclude (rendered kind : String) (c : Category) :
    Option (Except CoercionReason Atom) → Except CoercionError (Option Atom)
  | some (.ok a) => .ok (some a)
  | some (.error reason) => .error (.conversion rendered c.typeName reason)
  | none => .error (.notSupported rendered kind c.typeName)

theorem coerce_scalar (s : Scalar) (c : Category) (required : Bool) :
    (scalar s).coerce c required = conclude (scalar s).shown (scalarKind s) c (s.convert? c) := by
  rw [coerce, Scalar.coerce]
  rcases s.convert? c with _ | _ | _ <;> rfl

theorem coerce_bytes (bs : List UInt8) (c : Category) (required : Bool) :
    (bytes bs).coerce c required = conclude (bytes bs).shown "bytes" c (ofBytes? bs c) := by
  rw [coerce]
  rcases ofBytes? bs c with _ | _ | _ <;> rfl

/-- An atom of the target category is left as it is. -/
theorem coerce_native_self {a : Atom} {c : Category} (h : a.category = c) (required : Bool) :
    (native a).coerce c required = .ok (some a) := if_pos h

/-- An atomic value of another category is coerced as the scalar it is reduced to. -/
theorem coerce_native {a : Atom} {c : Category} (h : a.category ≠ c) (required : Bool) :
    (native a).coerce c required = (scalar (Scalar.ofAtom a)).coerce c required := if_neg h

/-- The two ways in which a conversion fails. -/
inductive ConversionFault (form : ValueForm) (value : String) (c : Category) :
    CoercionError → Prop where
  | notSupported (kind : String) : form.Excludes c →
      ConversionFault form value c (.notSupported value kind c.typeName)
  | conversion (reason : CoercionReason) : ¬ form.Excludes c →
      ConversionFault form value c (.conversion value c.typeName reason)

/-- A conversion fails in one of the two ways, by the form of what is converted. -/
theorem fault_of_conclude {form : ValueForm} {rendered kind : String} {c : Category}
    {x : Option (Except CoercionReason Atom)} {e : CoercionError}
    (hx : x = none ↔ form.Excludes c) (h : conclude rendered kind c x = .error e) :
    ConversionFault form rendered c e := by
  rcases x with _ | reason | a
  · cases h
    exact .notSupported kind (hx.mp rfl)
  · cases h
    exact .conversion reason fun hexcluded => nomatch hx.mpr hexcluded
  · cases h

/-- What a coercion fails with: null where a value is required, an array or an object, or a
conversion, of a value that is rendered as the argument unless that is an atomic value. -/
theorem coerce_eq_error {raw : Raw} {c : Category} {required : Bool} {e : CoercionError}
    (h : raw.coerce c required = .error e) :
    raw = .null ∧ e = .required c.typeName ∨
      raw.isComposite = true ∧ e = .singleValueExpected raw.shown c.typeName ∨
      ∃ form value, raw.form? c = some form ∧ ConversionFault form value c e ∧
        ((∀ a, raw ≠ .native a) → value = raw.shown) := by
  cases raw with
  | null =>
      cases required <;> cases h
      exact .inl ⟨rfl, rfl⟩
  | sequence _ | map _ =>
      cases h
      exact .inr (.inl ⟨rfl, rfl⟩)
  | scalar s =>
      rw [coerce_scalar] at h
      have hfault := fault_of_conclude Scalar.convert?_eq_none_iff h
      exact .inr (.inr ⟨s.form, _, rfl, hfault, fun _ => rfl⟩)
  | bytes bs =>
      rw [coerce_bytes] at h
      have hfault := fault_of_conclude ofBytes?_eq_none_iff h
      exact .inr (.inr ⟨.bytes, _, rfl, hfault, fun _ => rfl⟩)
  | native a =>
      by_cases hc : a.category = c
      · rw [coerce_native_self hc] at h
        cases h
      · rw [coerce_native hc, coerce_scalar] at h
        have hfault := fault_of_conclude Scalar.convert?_eq_none_iff h
        rw [Scalar.form_ofAtom] at hfault
        exact .inr (.inr ⟨a.category.form, _, if_neg hc, hfault, fun hne => absurd rfl (hne a)⟩)

/-- What is not converted at all fails so. -/
theorem coerce_of_excludes {raw : Raw} {c : Category} {form : ValueForm}
    (hform : raw.form? c = some form) (h : form.Excludes c) (required : Bool) :
    ∃ value kind, raw.coerce c required = .error (.notSupported value kind c.typeName) := by
  cases raw with
  | null | sequence _ | map _ => cases hform
  | scalar s =>
      cases hform
      rw [coerce_scalar, Scalar.convert?_eq_none_iff.mpr h]
      exact ⟨_, _, rfl⟩
  | bytes bs =>
      cases hform
      rw [coerce_bytes, ofBytes?_eq_none_iff.mpr h]
      exact ⟨_, _, rfl⟩
  | native a =>
      rw [form?] at hform
      split at hform
      · cases hform
      · rename_i hc
        cases hform
        rw [← Scalar.form_ofAtom] at h
        rw [coerce_native hc, coerce_scalar, Scalar.convert?_eq_none_iff.mpr h]
        exact ⟨_, _, rfl⟩

/-- Whether a value is required matters to null alone. -/
theorem coerce_indifferent {raw : Raw} (h : raw ≠ .null) (c : Category)
    (required required' : Bool) : raw.coerce c required' = raw.coerce c required := by
  cases raw with
  | null => exact absurd rfl h
  | _ => rfl

/-- No value results from null where none is required, and only then. -/
theorem coerce_eq_none_iff {raw : Raw} {c : Category} {required : Bool} :
    raw.coerce c required = .ok none ↔ raw = .null ∧ required = false := by
  constructor
  · intro h
    have hnull : raw = .null := Classical.byContradiction fun hne => by
      rw [coerce_indifferent hne c true required] at h
      exact coerce_ne_none raw c h
    cases required with
    | true => exact absurd h (coerce_ne_none raw c)
    | false => exact ⟨hnull, rfl⟩
  · rintro ⟨rfl, rfl⟩
    rfl

theorem form?_of_isComposite {raw : Raw} (h : raw.isComposite = true) (c : Category) :
    raw.form? c = none := by
  cases raw with
  | sequence _ | map _ => rfl
  | _ => cases h

/-- A list or a map is refused by every category with one code. -/
theorem coerce_of_isComposite {raw : Raw} (h : raw.isComposite = true) (c : Category)
    (required : Bool) :
    raw.coerce c required = .error (.singleValueExpected raw.shown c.typeName) := by
  cases raw with
  | sequence _ | map _ => rfl
  | _ => cases h

/-! ### Outcomes -/

/-- A coercion fails with a code. -/
def FailsWith (raw : Raw) (c : Category) (required : Bool) (code : String) : Prop :=
  ∃ e, raw.coerce c required = .error e ∧ e.code = code

/-- What the form of an argument and the category that is wanted say of the outcome. -/
structure ByKind (raw : Raw) (c : Category) (required : Bool) : Prop where
  /-- A value that results has the category that is wanted. -/
  category : ∀ a, raw.coerce c required = .ok (some a) → a.category = c
  /-- Nothing results from null alone, and only where no value is required. -/
  absent : raw.coerce c required = .ok none ↔ raw = .null ∧ required = false
  /-- Whether a value is required matters to null alone. -/
  indifferent : raw ≠ .null → ∀ required', raw.coerce c required' = raw.coerce c required
  /-- Arrays and objects fail as such, and nothing else does. -/
  composite : raw.FailsWith c required "TYPE_CONVERSION_ATOM_VALUE_EXPECTED" ↔
    raw.isComposite = true
  /-- What has a form that excludes the category fails as such, and nothing else does. -/
  excluded : raw.FailsWith c required "TYPE_CONVERSION_NOT_SUPPORTED" ↔
    ∃ form, raw.form? c = some form ∧ form.Excludes c
  /-- Every other failure is one of the value. -/
  conversion : ∀ e, raw.coerce c required = .error e → raw.isComposite = false →
    (∀ form, raw.form? c = some form → ¬ form.Excludes c) → e.code = "TYPE_CONVERSION"
  /-- So is every failure of a text. -/
  text : ∀ e, raw.coerce c required = .error e → raw.form? c = some .text →
    e.code = "TYPE_CONVERSION"
  /-- Null fails so where a value is required. -/
  requiredNull : raw = .null → required = true → raw.FailsWith c required "TYPE_CONVERSION"
  /-- An error names the type that is wanted. -/
  target : ∀ e, raw.coerce c required = .error e → e.target = c.typeName
  /-- An error shows the argument, unless that is an atomic value. -/
  value : ∀ e, raw.coerce c required = .error e → (∀ a, raw ≠ .native a) → e.value = raw.shown

/-- The code, the target and the value of a failed conversion. -/
theorem ConversionFault.parts {form : ValueForm} {value : String} {c : Category}
    {e : CoercionError} (h : ConversionFault form value c e) :
    (e.code = "TYPE_CONVERSION_NOT_SUPPORTED" ∧ form.Excludes c ∨
      e.code = "TYPE_CONVERSION" ∧ ¬ form.Excludes c) ∧
      e.target = c.typeName ∧ e.value = value := by
  cases h with
  | notSupported kind h => exact ⟨.inl ⟨rfl, h⟩, rfl, rfl⟩
  | conversion reason h => exact ⟨.inr ⟨rfl, h⟩, rfl, rfl⟩

/-- The code of an error says which of the three ways of failing it belongs to. -/
theorem code_of_coerce {raw : Raw} {c : Category} {required : Bool} {e : CoercionError}
    (h : raw.coerce c required = .error e) :
    e.code = "TYPE_CONVERSION_ATOM_VALUE_EXPECTED" ∧ raw.isComposite = true ∨
      e.code = "TYPE_CONVERSION_NOT_SUPPORTED" ∧
        (∃ form, raw.form? c = some form ∧ form.Excludes c) ∨
      e.code = "TYPE_CONVERSION" ∧ raw.isComposite = false ∧
        ∀ form, raw.form? c = some form → ¬ form.Excludes c := by
  rcases coerce_eq_error h with ⟨rfl, rfl⟩ | ⟨hcomposite, rfl⟩ | ⟨form, value, hform, hfault, -⟩
  · exact .inr (.inr ⟨rfl, rfl, nofun⟩)
  · exact .inl ⟨rfl, hcomposite⟩
  · rcases hfault.parts.1 with ⟨hcode, hexcluded⟩ | ⟨hcode, hincluded⟩
    · exact .inr (.inl ⟨hcode, form, hform, hexcluded⟩)
    · refine .inr (.inr ⟨hcode, ?_, fun form' hform' => ?_⟩)
      · cases hcomposite : raw.isComposite with
        | false => rfl
        | true => rw [form?_of_isComposite hcomposite] at hform; cases hform
      · rw [hform] at hform'
        cases hform'
        exact hincluded

/-- What has no form that excludes the category fails, if at all, by its value. -/
theorem code_of_included {raw : Raw} {c : Category} {required : Bool} {e : CoercionError}
    (h : raw.coerce c required = .error e) (hcomposite : raw.isComposite = false)
    (hincluded : ∀ form, raw.form? c = some form → ¬ form.Excludes c) :
    e.code = "TYPE_CONVERSION" := by
  rcases code_of_coerce h with ⟨-, hc⟩ | ⟨-, form, hform, hexcluded⟩ | ⟨hcode, -⟩
  · rw [hcomposite] at hc; cases hc
  · exact absurd hexcluded (hincluded form hform)
  · exact hcode

/-- **Outcomes by kind.**  For every argument, category and whether a value is required: the form of
the argument and the category decide which kind of outcome there is, and what an error shows. -/
theorem coerce_byKind (raw : Raw) (c : Category) (required : Bool) : raw.ByKind c required where
  category _ := coerce_category
  absent := coerce_eq_none_iff
  indifferent hne required' := coerce_indifferent hne c required required'
  composite := by
    constructor
    · rintro ⟨e, he, hcode⟩
      rcases code_of_coerce he with ⟨-, h⟩ | ⟨h, -⟩ | ⟨h, -⟩
      · exact h
      · rw [h] at hcode; exact absurd hcode (by decide)
      · rw [h] at hcode; exact absurd hcode (by decide)
    · intro h
      exact ⟨_, coerce_of_isComposite h c required, rfl⟩
  excluded := by
    constructor
    · rintro ⟨e, he, hcode⟩
      rcases code_of_coerce he with ⟨h, -⟩ | ⟨-, h⟩ | ⟨h, -⟩
      · rw [h] at hcode; exact absurd hcode (by decide)
      · exact h
      · rw [h] at hcode; exact absurd hcode (by decide)
    · rintro ⟨form, hform, h⟩
      obtain ⟨value, kind, he⟩ := coerce_of_excludes hform h required
      exact ⟨_, he, rfl⟩
  conversion _ := code_of_included
  text e he htext := by
    rcases code_of_coerce he with ⟨-, h⟩ | ⟨-, form, hform, h⟩ | ⟨h, -⟩
    · rw [form?_of_isComposite h] at htext; cases htext
    · rw [htext] at hform; cases hform; exact h.elim
    · exact h
  requiredNull := by
    rintro rfl rfl
    exact ⟨_, rfl, rfl⟩
  target e he := by
    rcases coerce_eq_error he with ⟨-, rfl⟩ | ⟨-, rfl⟩ | ⟨_, _, -, hfault, -⟩
    · rfl
    · rfl
    · exact hfault.parts.2.1
  value e he hnative := by
    rcases coerce_eq_error he with ⟨rfl, rfl⟩ | ⟨-, rfl⟩ | ⟨_, _, -, hfault, hvalue⟩
    · exact (by decide : "null" = Raw.null.shown)
    · rfl
    · rw [hfault.parts.2.2, hvalue hnative]

end Raw

end RecordFilter
