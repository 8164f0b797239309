import RecordFilter.Coercion

/-!
# The category of a coerced value

Every way into a category yields values of that category and no other (`Yields`): the readers of
texts, the conversions of numbers and truth values, and the decoders of bytes.

* `coerce_category`: what an argument is coerced to has the category that was asked for.
* `coerceName_mem`: what an argument names is one of the names given.
* `coerce_ne_none`, `coerceName_ne_none`: where a value is required, none is absent.
-/

namespace RecordFilter

/-- Whatever is yielded has this category. -/
def Yields (c : Category) (x : Except CoercionReason Atom) : Prop :=
  ∀ a, x = .ok a → a.category = c

namespace Yields

variable {c : Category}

theorem ok {a : Atom} (h : a.category = c) : Yields c (.ok a) := by
  rintro _ ⟨⟩; exact h

theorem error (reason : CoercionReason) : Yields c (.error reason) := by
  rintro _ ⟨⟩

/-- A conversion that puts its result into a category yields that category. -/
theorem map {α ε : Type} (x : Except ε α) {make : α → Atom} (h : ∀ v, (make v).category = c)
    (reason : ε → CoercionReason) : Yields c ((x.map make).mapError reason) := by
  cases x with
  | ok v => exact ok (h v)
  | error e => exact error (reason e)

theorem orReason {α : Type} (x : Option α) {make : α → Atom} (h : ∀ v, (make v).category = c)
    (reason : CoercionReason) : Yields c (Scalar.orReason make reason x) := by
  cases x with
  | some v => exact ok (h v)
  | none => exact error reason

theorem ite {p : Prop} [Decidable p] {x y : Except CoercionReason Atom} (hx : Yields c x)
    (hy : Yields c y) : Yields c (if p then x else y) := by
  split
  · exact hx
  · exact hy

end Yields

/-! ### Scalars -/

namespace Scalar

theorem yields_codePoint (i : Int) : Yields .char (codePoint i) :=
  .ite (.ok rfl) (.error _)

/-- An integer is converted to an atom of the target category or refused. -/
theorem yields_ofInteger {i : Int} {c : Category} {x : Except CoercionReason Atom}
    (h : ofInteger i c = some x) : Yields c x := by
  cases c with
  | integer k => cases h; exact .map _ (fun _ => by rfl) _
  | float32 | float64 | string => cases h; exact .ok rfl
  | decimal =>
      cases h
      split
      · exact .ok rfl
      · exact .error _
  | char => cases h; exact yields_codePoint i
  | boolean | uuid | date | dateTime | dateTimeOffset | time | timeSpan => cases h

theorem yields_ofFloat {x : Double} {c : Category} {y : Except CoercionReason Atom}
    (h : ofFloat x c = some y) : Yields c y := by
  cases c with
  | integer k =>
      cases h
      split
      · exact .map _ (fun _ => by rfl) _
      · exact .error _
  | float32 =>
      rw [ofFloat] at h
      split at h <;> cases h
      · exact .error _
      · exact .ok rfl
  | float64 | string => cases h; exact .ok rfl
  | decimal =>
      cases h
      split
      · exact .ok rfl
      · exact .error _
  | char =>
      cases h
      split
      · exact yields_codePoint _
      · exact .error _
  | boolean | uuid | date | dateTime | dateTimeOffset | time | timeSpan => cases h

theorem yields_ofBool {b : Bool} {c : Category} {x : Except CoercionReason Atom}
    (h : ofBool b c = some x) : Yields c x := by
  cases c with
  | boolean | string => cases h; exact .ok rfl
  | _ => cases h

theorem yields_ofText (s : String) (c : Category) : Yields c (ofText s c) := by
  cases c with
  | string => exact .ok rfl
  | char =>
      rw [ofText]
      split
      · exact .ok rfl
      · exact .error _
  | boolean => exact .ite (.ok rfl) (.ite (.ok rfl) (.error _))
  | integer k => exact .map _ (fun _ => by rfl) _
  | float32 | float64 | decimal | uuid => exact .map _ (fun _ => by rfl) _
  | date | dateTime | dateTimeOffset | time | timeSpan => exact .orReason _ (fun _ => by rfl) _

theorem yields_convert? {s : Scalar} {c : Category} {x : Except CoercionReason Atom}
    (h : s.convert? c = some x) : Yields c x := by
  cases s with
  | bool b => exact yields_ofBool h
  | int i => exact yields_ofInteger h
  | uint i => exact yields_ofInteger h
  | float x => exact yields_ofFloat h
  | text s => cases h; exact yields_ofText s c

theorem coerce_eq_ok {s : Scalar} {c : Category} {a : Atom} (h : s.coerce c = .ok a) :
    s.convert? c = some (.ok a) := by
  rw [coerce] at h
  split at h
  · cases h; assumption
  · cases h
  · cases h

/-- A scalar is coerced to an atom of the target category. -/
theorem category_of_coerce {s : Scalar} {c : Category} {a : Atom} (h : s.coerce c = .ok a) :
    a.category = c :=
  yields_convert? (coerce_eq_ok h) a rfl

end Scalar

/-! ### Arguments -/

namespace Raw

theorem yields_ofBytes? {bs : List UInt8} {c : Category} {x : Except CoercionReason Atom}
    (h : ofBytes? bs c = some x) : Yields c x := by
  cases c with
  | string | uuid => cases h; exact .map _ (fun _ => by rfl) _
  | _ => cases h

/-- What an argument is coerced to has the category that was asked for. -/
theorem coerce_category {raw : Raw} {c : Category} {required : Bool} {a : Atom}
    (h : raw.coerce c required = .ok (some a)) : a.category = c := by
  cases raw with
  | null => cases required <;> cases h
  | scalar s =>
      rw [coerce] at h
      cases hs : s.coerce c with
      | ok b => rw [hs] at h; cases h; exact Scalar.category_of_coerce hs
      | error e => rw [hs] at h; cases h
  | bytes bs =>
      rw [coerce] at h
      split at h
      · rename_i hb; cases h; exact yields_ofBytes? hb a rfl
      · cases h
      · cases h
  | sequence _ | map _ => cases h
  | native b =>
      rw [coerce] at h
      split at h
      · rename_i hb; cases h; exact hb
      · cases hs : (Scalar.ofAtom b).coerce c with
        | ok b => rw [hs] at h; cases h; exact Scalar.category_of_coerce hs
        | error e => rw [hs] at h; cases h

/-- What an argument names is one of the names given. -/
theorem coerceName_mem {raw : Raw} {typeName name : String} {names : List String}
    {required : Bool} (h : raw.coerceName typeName names required = .ok (some name)) :
    name ∈ names := by
  unfold coerceName at h
  split at h
  · split at h <;> cases h
  · cases h
  · cases h
  · split at h
    · cases h
    · split at h
      · rename_i hs; cases h; exact hs
      · cases h

/-- Where a value is required, none is absent. -/
theorem coerce_ne_none (raw : Raw) (c : Category) : raw.coerce c true ≠ .ok none := by
  intro h
  cases raw with
  | null => cases h
  | scalar s =>
      rw [coerce] at h
      cases hs : s.coerce c <;> rw [hs] at h <;> cases h
  | bytes bs =>
      rw [coerce] at h
      split at h <;> cases h
  | sequence _ | map _ => cases h
  | native b =>
      rw [coerce] at h
      split at h
      · cases h
      · cases hs : (Scalar.ofAtom b).coerce c <;> rw [hs] at h <;> cases h

/-- A required name is never left out. -/
theorem coerceName_ne_none (raw : Raw) (typeName : String) (names : List String) :
    raw.coerceName typeName names true ≠ .ok none := by
  intro h
  unfold coerceName at h
  split at h
  · cases h
  · cases h
  · cases h
  · split at h
    · cases h
    · split at h <;> cases h

end Raw

end RecordFilter
