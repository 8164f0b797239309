import RecordFilter.Atom

/-!
# The order of atomic values

Each category is totally preordered: moments by universal time, decimals by value whatever their
scales, binary numbers by value with both zeros equal; only `nan` stands outside the order of its
category.

* `stands_of_compare?`: two atoms are compared as two values of one category (`Atom.Stands`).
* `compare?_swap`: comparing the other way round gives the reverse, if anything.
* `compare?_trans`: among atoms that can be compared, the order is transitive.
* `Stands.exists_trans`: what can be compared with the same value can be compared.
* `isNaN_of_compare?_eq_none`: within a category only `nan` cannot be compared.
-/

namespace RecordFilter

open Std

/-! ### Calendar and identifiers -/

instance : TransCmp Date.compare :=
  inferInstanceAs (TransCmp (compareOn Date.dayNumber))

instance : TransCmp TimeOfDay.compare :=
  inferInstanceAs (TransCmp (compareLex (compareOn TimeOfDay.seconds) (compareOn TimeOfDay.nano)))

instance : TransCmp DateTime.compare :=
  inferInstanceAs (TransCmp
    (compareLex (compareOn DateTime.seconds) (compareOn fun t : DateTime => t.time.nano)))

instance : TransCmp OffsetDateTime.compare :=
  inferInstanceAs (TransCmp (compareLex (compareOn OffsetDateTime.seconds)
    (compareOn fun t : OffsetDateTime => t.clock.time.nano)))

instance : TransCmp TimeSpan.compare :=
  inferInstanceAs (TransCmp (compareOn TimeSpan.nanos))

instance : TransCmp Uuid.compare :=
  inferInstanceAs (TransCmp (compareOn Uuid.value))

/-! ### Decimals -/

theorem tenTo_add (m n : Nat) : tenTo (m + n) = tenTo m * tenTo n := Nat.pow_add 10 m n

/-- A positive factor on both sides leaves the order as it is. -/
theorem compare_mul_right {a b c : Int} (h : 0 < c) : compare (a * c) (b * c) = compare a b := by
  rcases Int.lt_trichotomy a b with hlt | rfl | hlt
  · rw [compare_eq_lt.mpr hlt, compare_eq_lt.mpr (Int.mul_lt_mul_of_pos_right hlt h)]
  · rw [compare_self, compare_self]
  · rw [compare_eq_gt.mpr hlt, compare_eq_gt.mpr (Int.mul_lt_mul_of_pos_right hlt h)]

namespace Decimal

/-- The value in units of the last of 28 places. -/
def level (d : Decimal) : Int := d.signed * tenTo (28 - d.scale)

/-- The level of a decimal is its number written at the greatest scale. -/
theorem level_mul (d : Decimal) : d.level * tenTo d.scale = d.signed * tenTo 28 := by
  have h : 28 - d.scale + d.scale = 28 := Nat.sub_add_cancel d.scale_le
  rw [level, Int.mul_assoc, ← Int.natCast_mul, ← tenTo_add, h]

/-- Cross-multiplied scales compare the values. -/
theorem compare_eq_compare_level (a b : Decimal) :
    Decimal.compare a b = compareOn level a b := by
  have ha : a.signed * tenTo b.scale * tenTo 28 = a.level * (tenTo a.scale * tenTo b.scale) := by
    rw [← Int.mul_assoc, level_mul]
    exact Int.mul_right_comm ..
  have hb : b.signed * tenTo a.scale * tenTo 28 = b.level * (tenTo a.scale * tenTo b.scale) := by
    rw [Int.mul_comm (tenTo a.scale : Int), ← Int.mul_assoc, level_mul]
    exact Int.mul_right_comm ..
  have pos : ∀ n, (0 : Int) < tenTo n := fun n => Int.natCast_pos.mpr (tenTo_pos n)
  calc Decimal.compare a b
      = Ord.compare (a.signed * tenTo b.scale * tenTo 28) (b.signed * tenTo a.scale * tenTo 28) :=
        (compare_mul_right (pos 28)).symm
    _ = Ord.compare a.level b.level := by
        rw [ha, hb, compare_mul_right (Int.mul_pos (pos _) (pos _))]

instance : TransCmp Decimal.compare := by
  have h : Decimal.compare = compareOn level := by
    funext a b; exact compare_eq_compare_level a b
  rw [h]
  infer_instance

end Decimal

/-! ### Binary numbers -/

namespace Binary

variable {F : FloatFormat}

/-- The place of a number that is no `nan`: on which side of the finite numbers it stands, and
among these its multiple of the least one. -/
def place? : Binary F → Option (Int × Int)
  | nan => none
  | infinite s => some (if s then -1 else 1, 0)
  | finite s m e _ =>
    let n : Int := m * twoTo (e - F.leastExponent).toNat
    some (0, if s then -n else n)

/-- The order of places: the side first. -/
def comparePlaces : Int × Int → Int × Int → Ordering :=
  compareLex (compareOn Prod.fst) (compareOn Prod.snd)

instance : TransCmp comparePlaces :=
  inferInstanceAs (TransCmp (compareLex (compareOn Prod.fst) (compareOn Prod.snd)))

/-- Floating-point numbers compare by their places, a NaN having none. -/
theorem compare?_eq_places (x y : Binary F) :
    x.compare? y = x.place?.bind fun a => y.place?.map fun b => comparePlaces a b := by
  cases x with
  | nan => cases y <;> rfl
  | infinite s =>
      cases y with
      | nan => rfl
      | infinite t => cases s <;> cases t <;> rfl
      | finite => cases s <;> rfl
  | finite s m e h =>
      cases y with
      | nan => rfl
      | infinite t => cases t <;> rfl
      | finite => rfl

theorem compare?_eq_some {x y : Binary F} {o : Ordering} :
    x.compare? y = some o ↔ ∃ a b, x.place? = some a ∧ y.place? = some b ∧
      comparePlaces a b = o := by
  rw [compare?_eq_places]
  cases x.place? <;> cases y.place? <;> simp

/-- Two numbers can be compared, unless one of them is `nan`. -/
theorem compare?_or_nan (x y : Binary F) : (∃ o, x.compare? y = some o) ∨ x = nan ∨ y = nan := by
  rw [compare?_eq_places]
  cases x with
  | nan => exact .inr (.inl rfl)
  | infinite | finite =>
      cases y with
      | nan => exact .inr (.inr rfl)
      | infinite | finite => exact .inl ⟨_, rfl⟩

theorem compare?_swap (x y : Binary F) : y.compare? x = (x.compare? y).map Ordering.swap := by
  rw [compare?_eq_places, compare?_eq_places]
  cases x.place? with
  | none => cases y.place? <;> rfl
  | some a =>
      cases y.place? with
      | none => rfl
      | some b => exact congrArg some OrientedCmp.eq_swap

theorem compare?_trans {x y z : Binary F} {o o' o'' : Ordering} (h : x.compare? y = some o)
    (h' : y.compare? z = some o') (h'' : x.compare? z = some o'') (le : o.isLE) (le' : o'.isLE) :
    o''.isLE := by
  obtain ⟨a, b, hx, hy, rfl⟩ := compare?_eq_some.mp h
  obtain ⟨b', c, hy', hz, rfl⟩ := compare?_eq_some.mp h'
  obtain ⟨a', c', hx', hz', rfl⟩ := compare?_eq_some.mp h''
  cases hx.symm.trans hx'
  cases hy.symm.trans hy'
  cases hz.symm.trans hz'
  exact TransCmp.isLE_trans le le'

end Binary

/-! ### Atoms -/

namespace Atom

/-- The order in which two values of one category stand. -/
inductive Stands : Atom → Atom → Ordering → Prop where
  | char (a b : Char) : Stands (.char a) (.char b) (compare a b)
  | boolean (a b : Bool) : Stands (.boolean a) (.boolean b) (compare a b)
  | integer {k : IntKind} (a b : k.Value) :
      Stands (.integer k a) (.integer k b) (compare a.1 b.1)
  | float32 {a b : Single} {o : Ordering} :
      a.compare? b = some o → Stands (.float32 a) (.float32 b) o
  | float64 {a b : Double} {o : Ordering} :
      a.compare? b = some o → Stands (.float64 a) (.float64 b) o
  | decimal (a b : Decimal) : Stands (.decimal a) (.decimal b) (a.compare b)
  | string (a b : String) : Stands (.string a) (.string b) (compare a b)
  | uuid (a b : Uuid) : Stands (.uuid a) (.uuid b) (a.compare b)
  | date (a b : Date) : Stands (.date a) (.date b) (a.compare b)
  | dateTime (a b : DateTime) : Stands (.dateTime a) (.dateTime b) (a.compare b)
  | dateTimeOffset (a b : OffsetDateTime) :
      Stands (.dateTimeOffset a) (.dateTimeOffset b) (a.compare b)
  | time (a b : TimeOfDay) : Stands (.time a) (.time b) (a.compare b)
  | timeSpan (a b : TimeSpan) : Stands (.timeSpan a) (.timeSpan b) (a.compare b)

/-- Two atoms are compared as two values of one category. -/
theorem stands_of_compare? {a b : Atom} {o : Ordering} (h : a.compare? b = some o) :
    Stands a b o := by
  unfold compare? at h
  split at h
  -- integers are compared only within one width
  case h_3 k a l b =>
    split at h
    · rename_i hk; subst hk; cases h; exact .integer a b
    · cases h
  case h_4 => exact .float32 h
  case h_5 => exact .float64 h
  case h_14 => cases h
  all_goals cases h; constructor

theorem Stands.category_eq {a b : Atom} {o : Ordering} (h : Stands a b o) :
    a.category = b.category := by
  cases h <;> rfl

theorem Stands.compare?_eq {a b : Atom} {o : Ordering} (h : Stands a b o) :
    a.compare? b = some o := by
  cases h with
  | integer a b => exact if_pos rfl
  | float32 h | float64 h => exact h
  | _ => rfl

theorem swap_of {α : Type} {make : α → Atom} {cmp : α → α → Ordering} [OrientedCmp cmp]
    (h : ∀ a b, Stands (make a) (make b) (cmp a b)) (a b : α) :
    Stands (make b) (make a) (cmp a b).swap := by
  rw [← OrientedCmp.eq_swap]
  exact h b a

/-- The order is turned round with its sides. -/
theorem Stands.swap {a b : Atom} {o : Ordering} (h : Stands a b o) : Stands b a o.swap := by
  cases h with
  | char a b => exact swap_of .char a b
  | boolean a b => exact swap_of .boolean a b
  | integer a b => rw [← OrientedCmp.eq_swap]; exact .integer b a
  | float32 h => exact .float32 (by rw [Binary.compare?_swap, h]; rfl)
  | float64 h => exact .float64 (by rw [Binary.compare?_swap, h]; rfl)
  | decimal a b => exact swap_of .decimal a b
  | string a b => exact swap_of .string a b
  | uuid a b => exact swap_of .uuid a b
  | date a b => exact swap_of .date a b
  | dateTime a b => exact swap_of .dateTime a b
  | dateTimeOffset a b => exact swap_of .dateTimeOffset a b
  | time a b => exact swap_of .time a b
  | timeSpan a b => exact swap_of .timeSpan a b

/-- The order is transitive among atoms that can be compared. -/
theorem Stands.trans {a b c : Atom} {o o' o'' : Ordering} (h : Stands a b o) (h' : Stands b c o')
    (h'' : Stands a c o'') (le : o.isLE) (le' : o'.isLE) : o''.isLE := by
  cases h with
  | integer => cases h'; cases h''; exact TransCmp.isLE_trans le le'
  | float32 h =>
      cases h' with
      | float32 h' => cases h'' with | float32 h'' => exact Binary.compare?_trans h h' h'' le le'
  | float64 h =>
      cases h' with
      | float64 h' => cases h'' with | float64 h'' => exact Binary.compare?_trans h h' h'' le le'
  | _ => cases h'; cases h''; exact TransCmp.isLE_trans le le'

/-- Comparing the other way round gives the reverse, if anything. -/
theorem compare?_swap (a b : Atom) : b.compare? a = (a.compare? b).map Ordering.swap := by
  cases h : a.compare? b with
  | some o => exact (stands_of_compare? h).swap.compare?_eq
  | none =>
      cases h' : b.compare? a with
      | none => rfl
      | some o => rw [(stands_of_compare? h').swap.compare?_eq] at h; cases h

/-- Among atoms that can be compared, the order is transitive. -/
theorem compare?_trans {a b c : Atom} {o o' o'' : Ordering} (h : a.compare? b = some o)
    (h' : b.compare? c = some o') (h'' : a.compare? c = some o'') (le : o.isLE) (le' : o'.isLE) :
    o''.isLE :=
  (stands_of_compare? h).trans (stands_of_compare? h') (stands_of_compare? h'') le le'

/-- The binary numbers that stand outside the order. -/
inductive IsNaN : Atom → Prop where
  | float32 : IsNaN (.float32 .nan)
  | float64 : IsNaN (.float64 .nan)

/-- Two values of one category stand in an order, or one of them is `nan`. -/
theorem stands_or_isNaN {a b : Atom} (h : a.category = b.category) :
    (∃ o, Stands a b o) ∨ a.IsNaN ∨ b.IsNaN := by
  cases a with
  | float32 x =>
      cases b with
      | float32 y =>
          obtain ⟨o, ho⟩ | rfl | rfl := x.compare?_or_nan y
          · exact .inl ⟨o, .float32 ho⟩
          · exact .inr (.inl .float32)
          · exact .inr (.inr .float32)
      | _ => cases h
  | float64 x =>
      cases b with
      | float64 y =>
          obtain ⟨o, ho⟩ | rfl | rfl := x.compare?_or_nan y
          · exact .inl ⟨o, .float64 ho⟩
          · exact .inr (.inl .float64)
          · exact .inr (.inr .float64)
      | _ => cases h
  | _ =>
      -- only an atom of the same category is left
      cases b <;> cases h
      exact .inl ⟨_, by constructor⟩

/-- A NaN compares with nothing, itself included. -/
theorem IsNaN.compare?_eq_none {a : Atom} (h : a.IsNaN) (b : Atom) : a.compare? b = none := by
  cases h <;> cases b <;> rfl

/-- What stands in an order is no `nan`. -/
theorem Stands.not_isNaN {a b : Atom} {o : Ordering} (h : Stands a b o) : ¬ a.IsNaN := by
  intro hnan
  cases h.compare?_eq.symm.trans (hnan.compare?_eq_none b)

/-- Two values that can be compared with a third can be compared with each other. -/
theorem Stands.exists_trans {a b c : Atom} {o o' : Ordering} (h : Stands a b o)
    (h' : Stands b c o') : ∃ o'', Stands a c o'' := by
  rcases stands_or_isNaN (h.category_eq.trans h'.category_eq) with hstands | hnan | hnan
  · exact hstands
  · exact absurd hnan h.not_isNaN
  · exact absurd hnan h'.swap.not_isNaN

/-- Within a category only `nan` cannot be compared. -/
theorem isNaN_of_compare?_eq_none {a b : Atom} (hcategory : a.category = b.category)
    (h : a.compare? b = none) : a.IsNaN ∨ b.IsNaN := by
  refine (stands_or_isNaN hcategory).resolve_left ?_
  rintro ⟨o, ho⟩
  rw [ho.compare?_eq] at h
  cases h

end Atom

end RecordFilter
