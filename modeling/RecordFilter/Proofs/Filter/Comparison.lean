import RecordFilter.Proofs.Filter.Typing
import RecordFilter.Proofs.Order.Atom

/-!
# Comparisons side by side

Filters that differ in the operator alone agree on every record, whatever its fields hold.  What a
comparison decides depends only on the order in which the value at the path stands to the argument,
if it stands in any (`Comparison.test`), and this is the same for all of them.

* `decides_comparison`, `decides_range`: what filters on a path that resolves decide.
* `value_eq_null_iff`: in which records a path reads as null (`FieldPath.ReadsNull`).
* `holds_of_apply_of_null`: what is decided where a path reads as null.
* `comparisons_coherent`: how the comparisons of a field are related to each other.
-/

namespace RecordFilter

/-! ### Tests -/

namespace Comparison

/-- Whether a comparison holds of values that stand in an order, or in none. -/
def test (op : Comparison) : Option Ordering → Bool
  | some o => op.holds o
  | none => op = .ne

/-- Difference passes where equality does not, also where there is no result. -/
theorem test_ne (o : Option Ordering) : ne.test o = !eq.test o := by
  rcases o with _ | _ | _ | _ <;> rfl

theorem test_le (o : Option Ordering) : le.test o = (lt.test o || eq.test o) := by
  rcases o with _ | _ | _ | _ <;> rfl

theorem test_ge (o : Option Ordering) : ge.test o = (gt.test o || eq.test o) := by
  rcases o with _ | _ | _ | _ <;> rfl

/-- Of the three strict tests one holds where there is an order, and none where there is none. -/
theorem count_tests (o : Option Ordering) :
    [lt.test o, eq.test o, gt.test o].count true = if o.isSome then 1 else 0 := by
  rcases o with _ | _ | _ | _ <;> rfl

theorem test_le_eq_true {o : Option Ordering} : le.test o = true ↔ ∃ o', o = some o' ∧ o'.isLE := by
  rcases o with _ | _ | _ | _ <;> simp [test, holds]

theorem test_ge_eq_true {o : Option Ordering} :
    ge.test o = true ↔ ∃ o', o = some o' ∧ o'.swap.isLE := by
  rcases o with _ | _ | _ | _ <;> simp [test, holds]

/-- The operator that a comparison is written with. -/
def operator : Comparison → Operator
  | eq => .equalTo
  | ne => .notEqualTo
  | lt => .lessThan
  | le => .lessOrEqual
  | gt => .greaterThan
  | ge => .greaterOrEqual

end Comparison

/-- A comparison holds as its operator tests the order of the two values. -/
theorem Predicate.holds_compare (r : Record) (path : FieldPath) (op : Comparison) (v : Operand) :
    (compare path op v).holds r = op.test ((path.value r).compare? v) := by
  rw [holds]
  cases (path.value r).compare? v <;> rfl

/-- A type that is suited by one operator that compares by order is suited by all of them, and by
those that tell apart. -/
theorem Shape.mem_operators_of_ordering {s : Shape} {o o' : Operator} (ho : o ∈ ordering)
    (h : o ∈ s.operators) (ho' : o' ∈ .equalTo :: .notEqualTo :: ordering) :
    o' ∈ s.operators := by
  obtain ⟨c, rfl, hc⟩ := atomic_of_ordering ho h
  rw [operators, categoryOperators_of_ne_string hc, OperatorSet.mem_ofList]
  exact (by decide : ∀ o' ∈ .equalTo :: .notEqualTo :: ordering, o' ∈ _) o' ho'

/-- What can be told to be equal can be told to be different. -/
theorem Shape.equalTo_iff_notEqualTo (s : Shape) :
    .equalTo ∈ s.operators ↔ .notEqualTo ∈ s.operators :=
  operators_induction (P := fun ops => .equalTo ∈ ops ↔ .notEqualTo ∈ ops) (by decide) s

/-- Whether anything is there can be asked of every value. -/
theorem Shape.nullTests_mem (s : Shape) : .isNull ∈ s.operators ∧ .isNotNull ∈ s.operators :=
  operators_induction (P := fun ops => .isNull ∈ ops ∧ .isNotNull ∈ ops) (by decide) s

/-! ### Reading null -/

/-- A record reads as null at a path where the field is missing or null, and where the field of a
field is looked for in no record, or in one in which it is missing or null. -/
inductive FieldPath.ReadsNull (r : Record) : FieldPath → Prop where
  | missing {name : String} {tail : Option String} :
      r.field? name = none → ReadsNull r ⟨name, tail⟩
  | null {name : String} : r.field? name = some .null → ReadsNull r ⟨name, none⟩
  | noRecord {outer inner : String} {v : FieldValue} :
      r.field? outer = some v → (∀ fields, v ≠ .record fields) → ReadsNull r ⟨outer, some inner⟩
  | innerMissing {outer inner : String} {fields : Record} :
      r.field? outer = some (.record fields) → fields.field? inner = none →
      ReadsNull r ⟨outer, some inner⟩
  | innerNull {outer inner : String} {fields : Record} :
      r.field? outer = some (.record fields) → fields.field? inner = some .null →
      ReadsNull r ⟨outer, some inner⟩

/-- The value at a path is null where the record reads as null there, and only there. -/
theorem FieldPath.value_eq_null_iff {r : Record} {p : FieldPath} :
    p.value r = .null ↔ p.ReadsNull r := by
  obtain ⟨head, tail⟩ := p
  constructor
  · intro h
    rw [value] at h
    cases hhead : r.field? head with
    | none => exact .missing hhead
    | some v =>
        rw [hhead] at h
        cases tail with
        | none => cases h; exact .null hhead
        | some tail =>
            cases v with
            | record fields =>
                cases htail : Record.field? fields tail with
                | none => exact .innerMissing hhead htail
                | some w =>
                    dsimp only at h
                    rw [htail] at h
                    cases h
                    exact .innerNull hhead htail
            | _ => exact .noRecord hhead nofun
  · intro h
    rw [value]
    cases h with
    | missing hhead => rw [hhead]
    | null hhead => rw [hhead]
    | @noRecord _ _ v hhead hv =>
        rw [hhead]
        cases v with
        | record fields => exact absurd rfl (hv fields)
        | _ => rfl
    | innerMissing hhead htail => rw [hhead]; dsimp only; rw [htail]; rfl
    | innerNull hhead htail => rw [hhead]; dsimp only; rw [htail]; rfl

namespace FilterContext

open Outcome

/-! ### Decisions -/

/-- A filter has a predicate, and this is the decision about a record. -/
def Decides (ctx : FilterContext) (r : Record) (f : PropertyFilter) (b : Bool) : Prop :=
  ∃ q, ctx.predicate f = .ok q ∧ q.holds r = b

variable {ctx : FilterContext} {F : TypeFamily} {r : Record} {text : String} {path : FieldPath}
  {t : TypeExpr} {a low high : Raw} {b : Bool} {v : Operand}

/-- Null is no operand. -/
theorem nonnull_of_operand (h : operand F t a = .ok v) : a.isNull = false := by
  cases a with
  | null =>
      simp only [operand] at h
      split at h
      · cases h
      · cases h
      · cases h
      · cases h
  | _ => rfl

theorem resolve_of_decides {o : Operator} {arguments : List Raw}
    (h : ctx.Decides r ⟨text, o, arguments⟩ b) :
    ∃ path t, FieldPath.resolve ctx.family ctx.element text = .ok (path, t) := by
  obtain ⟨q, hq, -⟩ := h
  obtain ⟨path, t, hr, -⟩ := build_eq_ok.mp (predicate_eq_ok.mp hq)
  exact ⟨path, t, hr⟩

/-- What a filter on a path that resolves decides. -/
theorem decides_iff {o : Operator} {arguments : List Raw}
    (hr : FieldPath.resolve ctx.family ctx.element text = .ok (path, t)) :
    ctx.Decides r ⟨text, o, arguments⟩ b ↔ o.accepts arguments.length ∧
      nullTestOr o arguments ∈ (ctx.family.describe t).shape.operators ∧
      ∃ q, apply ctx.family ctx.separator path t (nullTestOr o arguments) arguments = .ok q ∧
        q.holds r = b := by
  constructor
  · rintro ⟨q, hq, hb⟩
    obtain ⟨path', t', hr', ha, ho, hq⟩ := build_eq_ok.mp (predicate_eq_ok.mp hq)
    cases hr.symm.trans hr'
    exact ⟨ha, ho, q, hq, hb⟩
  · rintro ⟨ha, ho, q, hq, hb⟩
    exact ⟨q, predicate_eq_ok.mpr (build_eq_ok.mpr ⟨path, t, hr, ha, ho, hq⟩), hb⟩

/-- Equality with null asks whether anything is there. -/
theorem decides_equalTo_null
    (hr : FieldPath.resolve ctx.family ctx.element text = .ok (path, t)) :
    ctx.Decides r ⟨text, .equalTo, [.null]⟩ b ↔ (path.value r).isNull = b := by
  refine (decides_iff hr).trans ⟨?_, fun hb => ?_⟩
  · rintro ⟨-, -, q, hq, hb⟩
    cases hq
    exact hb
  · exact ⟨rfl, (Shape.nullTests_mem _).1, _, rfl, hb⟩

/-- Against null the test for difference is the test for a value. -/
theorem decides_notEqualTo_null
    (hr : FieldPath.resolve ctx.family ctx.element text = .ok (path, t)) :
    ctx.Decides r ⟨text, .notEqualTo, [.null]⟩ b ↔ (!(path.value r).isNull) = b := by
  refine (decides_iff hr).trans ⟨?_, fun hb => ?_⟩
  · rintro ⟨-, -, q, hq, hb⟩
    cases hq
    exact hb
  · exact ⟨rfl, (Shape.nullTests_mem _).2, _, rfl, hb⟩

/-- A comparison on a path that resolves tests the order in which the value at the path stands to
the argument. -/
theorem decides_comparison (op : Comparison)
    (hr : FieldPath.resolve ctx.family ctx.element text = .ok (path, t))
    (ha : nullTestOr op.operator [a] = op.operator) :
    ctx.Decides r ⟨text, op.operator, [a]⟩ b ↔
      op.operator ∈ (ctx.family.describe t).shape.operators ∧
        ∃ v, operand ctx.family t a = .ok v ∧ op.test ((path.value r).compare? v) = b := by
  have haccepts : op.operator.accepts [a].length := by cases op <;> rfl
  have happly : apply ctx.family ctx.separator path t op.operator [a] =
      (operand ctx.family t a).map (Predicate.compare path op) := by cases op <;> rfl
  rw [decides_iff hr, ha, happly]
  simp only [haccepts, true_and]
  refine and_congr_right fun _ => ⟨?_, ?_⟩
  · rintro ⟨q, hq, hb⟩
    obtain ⟨v, hv, rfl⟩ := map_eq_ok.mp hq
    exact ⟨v, hv, (Predicate.holds_compare r path op v).symm.trans hb⟩
  · rintro ⟨v, hv, hb⟩
    exact ⟨_, map_eq_ok.mpr ⟨v, hv, rfl⟩, (Predicate.holds_compare r path op v).trans hb⟩

/-- A range on a path that resolves tests against both of its ends. -/
theorem decides_range
    (hr : FieldPath.resolve ctx.family ctx.element text = .ok (path, t)) :
    ctx.Decides r ⟨text, .inRange, [low, high]⟩ b ↔
      .inRange ∈ (ctx.family.describe t).shape.operators ∧
        ∃ v w, operand ctx.family t low = .ok v ∧ operand ctx.family t high = .ok w ∧
          (Comparison.ge.test ((path.value r).compare? v) &&
            Comparison.le.test ((path.value r).compare? w)) = b := by
  rw [decides_iff hr]
  refine (and_iff_right rfl).trans (and_congr_right fun _ => ⟨?_, ?_⟩)
  · rintro ⟨q, hq, hb⟩
    obtain ⟨p, hp, hq⟩ := bind_eq_ok.mp hq
    obtain ⟨p', hp', hq⟩ := bind_eq_ok.mp hq
    obtain ⟨v, hv, rfl⟩ := map_eq_ok.mp hp
    obtain ⟨w, hw, rfl⟩ := map_eq_ok.mp hp'
    cases hq
    rw [Predicate.holds, Predicate.holds_compare, Predicate.holds_compare] at hb
    exact ⟨v, w, hv, hw, hb⟩
  · rintro ⟨v, w, hv, hw, hb⟩
    refine ⟨.and (.compare path .ge v) (.compare path .le w), ?_, ?_⟩
    · exact bind_eq_ok.mpr ⟨_, map_eq_ok.mpr ⟨v, hv, rfl⟩,
        bind_eq_ok.mpr ⟨_, map_eq_ok.mpr ⟨w, hw, rfl⟩, rfl⟩⟩
    · rw [Predicate.holds, Predicate.holds_compare, Predicate.holds_compare]
      exact hb

/-! ### Where nothing is read -/

/-- A null is different from every operand and in no order with one. -/
theorem holds_of_comparison_of_null {op : Comparison} {q : Predicate}
    (hnull : path.value r = .null) (h : comparison F path t op a = .ok q) :
    q.holds r = decide (op = .ne) := by
  obtain ⟨v, -, rfl⟩ := map_eq_ok.mp h
  rw [Predicate.holds_compare, hnull]
  rfl

/-- Where a path reads as null, the null test and the difference from an argument hold, and nothing
else. -/
theorem holds_of_apply_of_null {separator : String} {o : Operator} {arguments : List Raw}
    {q : Predicate} (hnull : path.value r = .null)
    (h : apply F separator path t o arguments = .ok q) :
    q.holds r = decide (o = .isNull ∨ o = .notEqualTo) := by
  have hsequence {list : Raw} {explicit : Option Raw}
      (h : sequence F separator path t list explicit = .ok q) : q.holds r = false := by
    refine sequence_closed (P := fun q => q.holds r = false) (fun p p' hp hp' => ?_)
      (fun raw p hp => holds_of_comparison_of_null hnull hp) h
    rw [Predicate.holds, hp, hp']
    rfl
  unfold apply at h
  split at h
  · cases h; rw [Predicate.holds, hnull]; rfl
  · cases h; rw [Predicate.holds, hnull]; rfl
  -- six comparisons
  · exact holds_of_comparison_of_null hnull h
  · exact holds_of_comparison_of_null hnull h
  · exact holds_of_comparison_of_null hnull h
  · exact holds_of_comparison_of_null hnull h
  · exact holds_of_comparison_of_null hnull h
  · exact holds_of_comparison_of_null hnull h
  -- a range is two of them, a sequence any number
  · obtain ⟨p, hp, h⟩ := bind_eq_ok.mp h
    obtain ⟨p', hp', h⟩ := bind_eq_ok.mp h
    cases h
    rw [Predicate.holds, holds_of_comparison_of_null hnull hp]
    rfl
  · exact hsequence h
  · exact hsequence h
  -- no text and no collection is read
  · obtain ⟨needle, -, rfl⟩ := map_eq_ok.mp h
    rw [Predicate.holds, hnull]
    rfl
  · cases h; rw [Predicate.holds, hnull]; rfl
  · cases h; rw [Predicate.holds, hnull]; rfl
  · cases h

/-- The filters that hold where nothing is read: the two null tests, and the difference from a value
that is there. -/
inductive HoldsOfNull : Operator → List Raw → Prop where
  | isNull (arguments : List Raw) : HoldsOfNull .isNull arguments
  | equalTo : HoldsOfNull .equalTo [.null]
  | notEqualTo {a : Raw} : a ≠ .null → HoldsOfNull .notEqualTo [a]

/-- The operators that a null passes are the tests for null and for difference. -/
theorem nullTestOr_iff_holdsOfNull {o : Operator} {arguments : List Raw}
    (ha : o.accepts arguments.length) :
    (nullTestOr o arguments = .isNull ∨ nullTestOr o arguments = .notEqualTo) ↔
      HoldsOfNull o arguments := by
  cases o with
  | isNull => exact iff_of_true (.inl rfl) (.isNull arguments)
  | equalTo =>
      obtain ⟨a, rfl⟩ := Operator.exists_singleton ha rfl
      cases a with
      | null => exact iff_of_true (.inl rfl) .equalTo
      | _ => exact iff_of_false nofun nofun
  | notEqualTo =>
      obtain ⟨a, rfl⟩ := Operator.exists_singleton ha rfl
      cases a with
      | null =>
          refine iff_of_false nofun fun h => ?_
          cases h with
          | notEqualTo hnull => exact hnull rfl
      | _ => exact iff_of_true (.inr rfl) (.notEqualTo nofun)
  | _ => exact iff_of_false nofun nofun

/-! ### Orders -/

theorem operand_atomic {c : Category} (hk : (F.describe t).kind = .atomic c) :
    operand F t a = .ok v ↔ ∃ u, a.coerce c true = .ok (some u) ∧ v = .atom u := by
  simp only [operand, hk]
  constructor
  · intro h
    split at h
    · rename_i u hu; cases h; exact ⟨u, hu, rfl⟩
    · cases h
    · cases h
  · rintro ⟨u, hu, rfl⟩
    rw [hu]

/-- The value at a path and an argument, coerced to the type at the path, are atoms of one category
that stand in an order. -/
def Ordered (ctx : FilterContext) (r : Record) (text : String) (a : Raw) : Prop :=
  ∃ path t c u v, FieldPath.resolve ctx.family ctx.element text = .ok (path, t) ∧
    (ctx.family.describe t).kind = .atomic c ∧ a.coerce c true = .ok (some v) ∧
    path.value r = .atom u ∧ u.category = c ∧ (u.compare? v).isSome

/-- An argument that is compared by order is an atom, and only atoms stand in an order to it. -/
theorem ordered_iff (hr : FieldPath.resolve ctx.family ctx.element text = .ok (path, t))
    (ho : .lessThan ∈ (ctx.family.describe t).shape.operators)
    (hv : operand ctx.family t a = .ok v) :
    ctx.Ordered r text a ↔ ((path.value r).compare? v).isSome := by
  obtain ⟨c, hshape, -⟩ := Shape.atomic_of_ordering (by decide) ho
  have hk := Descriptor.kind_of_shape_atomic hshape
  obtain ⟨w, hw, rfl⟩ := (operand_atomic hk).mp hv
  constructor
  · rintro ⟨path', t', c', u, w', hr', hk', hw', hu, -, hsome⟩
    cases hr.symm.trans hr'
    cases hk.symm.trans hk'
    cases hw.symm.trans hw'
    rw [hu]
    exact hsome
  · intro hsome
    cases hu : path.value r with
    | atom u =>
        rw [hu] at hsome
        obtain ⟨o, hsome⟩ := Option.isSome_iff_exists.mp hsome
        have hcategory := (Atom.stands_of_compare? hsome).category_eq
        refine ⟨path, t, c, u, w, hr, hk, hw, hu, ?_, Option.isSome_iff_exists.mpr ⟨o, hsome⟩⟩
        rw [hcategory, Raw.coerce_category hw]
    | _ => rw [hu] at hsome; cases hsome

/-- No atom is in a range that ends before it begins. -/
theorem not_between {u v w : Atom} (hwv : w.compare? v = some .lt)
    (hge : Comparison.ge.test (u.compare? v)) : ¬ Comparison.le.test (u.compare? w) := by
  intro hle
  obtain ⟨o, huv, ho⟩ := Comparison.test_ge_eq_true.mp hge
  obtain ⟨o', huw, ho'⟩ := Comparison.test_le_eq_true.mp hle
  have hvu : v.compare? u = some o.swap := by rw [Atom.compare?_swap, huv]; rfl
  have hvw : v.compare? w = some .gt := by rw [Atom.compare?_swap, hwv]; rfl
  cases Atom.compare?_trans hvu huw hvw ho ho'

/-! ### Coherence -/

/-- Comparisons by order are never null tests. -/
theorem decides_ordering (op : Comparison) (hop : op.operator ∈ Shape.ordering)
    (hr : FieldPath.resolve ctx.family ctx.element text = .ok (path, t)) :
    ctx.Decides r ⟨text, op.operator, [a]⟩ b ↔
      op.operator ∈ (ctx.family.describe t).shape.operators ∧
        ∃ v, operand ctx.family t a = .ok v ∧ op.test ((path.value r).compare? v) = b := by
  refine decides_comparison op hr ?_
  cases op with
  | eq | ne => exact absurd hop (by decide)
  | _ => rfl

theorem nullTestOr_singleton (op : Comparison) (ha : a.isNull = false) :
    nullTestOr op.operator [a] = op.operator :=
  nullTestOr_of_nonnull (List.forall_mem_singleton.mpr ha)

/-- A comparison that allows equality holds where the strict one or equality does. -/
theorem decides_orEqual (strict weak : Comparison) (hstrict : strict.operator ∈ Shape.ordering)
    (hweak : weak.operator ∈ Shape.ordering)
    (htest : ∀ o, weak.test o = (strict.test o || Comparison.eq.test o)) :
    ctx.Decides r ⟨text, weak.operator, [a]⟩ b ↔
      ∃ x y, ctx.Decides r ⟨text, strict.operator, [a]⟩ x ∧
        ctx.Decides r ⟨text, .equalTo, [a]⟩ y ∧ (x || y) = b := by
  constructor
  · intro h
    obtain ⟨path, t, hr⟩ := resolve_of_decides h
    obtain ⟨ho, v, hv, rfl⟩ := (decides_ordering weak hweak hr).mp h
    have heq := nullTestOr_singleton .eq (nonnull_of_operand hv)
    refine ⟨_, _, (decides_ordering strict hstrict hr).mpr ⟨?_, v, hv, rfl⟩,
      (decides_comparison .eq hr heq).mpr ⟨?_, v, hv, rfl⟩, (htest _).symm⟩
    · exact Shape.mem_operators_of_ordering hweak ho (by simp [hstrict])
    · exact Shape.mem_operators_of_ordering hweak ho List.mem_cons_self
  · rintro ⟨x, y, hx, hy, rfl⟩
    obtain ⟨path, t, hr⟩ := resolve_of_decides hx
    obtain ⟨ho, v, hv, rfl⟩ := (decides_ordering strict hstrict hr).mp hx
    have heq := nullTestOr_singleton .eq (nonnull_of_operand hv)
    obtain ⟨-, v', hv', rfl⟩ := (decides_comparison .eq hr heq).mp hy
    cases hv.symm.trans hv'
    refine (decides_ordering weak hweak hr).mpr ⟨?_, v, hv, htest _⟩
    exact Shape.mem_operators_of_ordering hstrict ho (by simp [hweak])

/-- Of the three strict comparisons at most one holds, and one does exactly where there is an
order. -/
theorem strict_of_decides {x y z : Bool} (hx : ctx.Decides r ⟨text, .lessThan, [a]⟩ x)
    (hy : ctx.Decides r ⟨text, .equalTo, [a]⟩ y) (hz : ctx.Decides r ⟨text, .greaterThan, [a]⟩ z) :
    [x, y, z].count true ≤ 1 ∧ ([x, y, z].count true = 1 ↔ ctx.Ordered r text a) := by
  obtain ⟨path, t, hr⟩ := resolve_of_decides hx
  obtain ⟨ho, v, hv, rfl⟩ := (decides_comparison .lt hr rfl).mp hx
  have heq := nullTestOr_singleton .eq (nonnull_of_operand hv)
  obtain ⟨-, v', hv', rfl⟩ := (decides_comparison .eq hr heq).mp hy
  cases hv.symm.trans hv'
  obtain ⟨-, v', hv', rfl⟩ := (decides_comparison .gt hr rfl).mp hz
  cases hv.symm.trans hv'
  rw [Comparison.count_tests, ordered_iff hr ho hv]
  cases ((path.value r).compare? v).isSome <;> decide

/-- Once the path resolves, difference decides the opposite of equality. -/
theorem decides_notEqualTo_of_resolve
    (hr : FieldPath.resolve ctx.family ctx.element text = .ok (path, t)) :
    ctx.Decides r ⟨text, .notEqualTo, [a]⟩ (!b) ↔ ctx.Decides r ⟨text, .equalTo, [a]⟩ b := by
  cases hnull : a.isNull with
  | true =>
      obtain rfl : a = .null := by cases a <;> first | rfl | cases hnull
      rw [decides_notEqualTo_null hr, decides_equalTo_null hr, Bool.not_inj_iff]
  | false =>
      refine (decides_comparison .ne hr (nullTestOr_singleton .ne hnull)).trans ?_
      refine Iff.trans ?_ (decides_comparison .eq hr (nullTestOr_singleton .eq hnull)).symm
      simp only [Comparison.operator, Comparison.test_ne, Bool.not_inj_iff,
        Shape.equalTo_iff_notEqualTo]

/-- A difference holds where equality does not, of null too. -/
theorem decides_notEqualTo_iff :
    ctx.Decides r ⟨text, .notEqualTo, [a]⟩ (!b) ↔ ctx.Decides r ⟨text, .equalTo, [a]⟩ b := by
  constructor
  · intro h
    obtain ⟨path, t, hr⟩ := resolve_of_decides h
    exact (decides_notEqualTo_of_resolve hr).mp h
  · intro h
    obtain ⟨path, t, hr⟩ := resolve_of_decides h
    exact (decides_notEqualTo_of_resolve hr).mpr h

/-- A range holds where both comparisons with its ends do. -/
theorem decides_range_iff :
    ctx.Decides r ⟨text, .inRange, [low, high]⟩ b ↔
      ∃ x y, ctx.Decides r ⟨text, .greaterOrEqual, [low]⟩ x ∧
        ctx.Decides r ⟨text, .lessOrEqual, [high]⟩ y ∧ (x && y) = b := by
  constructor
  · intro h
    obtain ⟨path, t, hr⟩ := resolve_of_decides h
    obtain ⟨ho, v, w, hv, hw, rfl⟩ := (decides_range hr).mp h
    refine ⟨_, _, (decides_comparison .ge hr rfl).mpr ⟨?_, v, hv, rfl⟩,
      (decides_comparison .le hr rfl).mpr ⟨?_, w, hw, rfl⟩, rfl⟩
    · exact Shape.mem_operators_of_ordering (by decide) ho (by decide)
    · exact Shape.mem_operators_of_ordering (by decide) ho (by decide)
  · rintro ⟨x, y, hx, hy, rfl⟩
    obtain ⟨path, t, hr⟩ := resolve_of_decides hx
    obtain ⟨ho, v, hv, rfl⟩ := (decides_comparison .ge hr rfl).mp hx
    obtain ⟨-, w, hw, rfl⟩ := (decides_comparison .le hr rfl).mp hy
    refine (decides_range hr).mpr ⟨?_, v, w, hv, hw, rfl⟩
    exact Shape.mem_operators_of_ordering (by decide) ho (by decide)

/-- How the filters on one path are related to each other on one record. -/
structure Coherent (ctx : FilterContext) (text : String) (r : Record) : Prop where
  /-- A difference holds exactly where equality does not. -/
  difference : ∀ a b, ctx.Decides r ⟨text, .notEqualTo, [a]⟩ (!b) ↔
    ctx.Decides r ⟨text, .equalTo, [a]⟩ b
  lessOrEqual : ∀ a b, ctx.Decides r ⟨text, .lessOrEqual, [a]⟩ b ↔
    ∃ x y, ctx.Decides r ⟨text, .lessThan, [a]⟩ x ∧ ctx.Decides r ⟨text, .equalTo, [a]⟩ y ∧
      (x || y) = b
  greaterOrEqual : ∀ a b, ctx.Decides r ⟨text, .greaterOrEqual, [a]⟩ b ↔
    ∃ x y, ctx.Decides r ⟨text, .greaterThan, [a]⟩ x ∧ ctx.Decides r ⟨text, .equalTo, [a]⟩ y ∧
      (x || y) = b
  /-- At most one strict comparison holds, and one does exactly between atoms that stand in an
  order. -/
  strict : ∀ a x y z, ctx.Decides r ⟨text, .lessThan, [a]⟩ x →
    ctx.Decides r ⟨text, .equalTo, [a]⟩ y → ctx.Decides r ⟨text, .greaterThan, [a]⟩ z →
    [x, y, z].count true ≤ 1 ∧ ([x, y, z].count true = 1 ↔ ctx.Ordered r text a)
  range : ∀ low high b, ctx.Decides r ⟨text, .inRange, [low, high]⟩ b ↔
    ∃ x y, ctx.Decides r ⟨text, .greaterOrEqual, [low]⟩ x ∧
      ctx.Decides r ⟨text, .lessOrEqual, [high]⟩ y ∧ (x && y) = b
  /-- Nothing is in a range that ends before it begins. -/
  emptyRange : ∀ low high path t c v w,
    FieldPath.resolve ctx.family ctx.element text = .ok (path, t) →
    (ctx.family.describe t).kind = .atomic c → low.coerce c true = .ok (some v) →
    high.coerce c true = .ok (some w) → w.compare? v = some .lt →
    ¬ ctx.Decides r ⟨text, .inRange, [low, high]⟩ true
  /-- Where nothing is read, whatever filter there is decides by its operator and by whether its
  argument is null. -/
  null : ∀ path t, FieldPath.resolve ctx.family ctx.element text = .ok (path, t) →
    path.ReadsNull r → ∀ o arguments b, ctx.Decides r ⟨text, o, arguments⟩ b →
    (b = true ↔ HoldsOfNull o arguments)

/-- **Comparisons are coherent.**  For every type, path and record, whatever the fields of the
record hold: a filter for a difference, for a comparison that allows equality or for a range has a
predicate exactly when the filters that it is made of have one, and decides as these do together;
equality and the two strict comparisons exclude each other, and leave nothing else between atoms
that stand in an order; and nothing but a difference from a value or a test for null holds where
nothing is read. -/
theorem comparisons_coherent (ctx : FilterContext) (text : String) (r : Record) :
    ctx.Coherent text r where
  difference _ _ := decides_notEqualTo_iff
  lessOrEqual _ _ := decides_orEqual .lt .le (by decide) (by decide) Comparison.test_le
  greaterOrEqual _ _ := decides_orEqual .gt .ge (by decide) (by decide) Comparison.test_ge
  strict _ _ _ _ := strict_of_decides
  range _ _ _ := decides_range_iff
  emptyRange low high path t c v w hr hk hlow hhigh hwv h := by
    obtain ⟨-, v', w', hv, hw, htest⟩ := (decides_range hr).mp h
    obtain ⟨_, hv', rfl⟩ := (operand_atomic hk).mp hv
    obtain ⟨_, hw', rfl⟩ := (operand_atomic hk).mp hw
    cases hlow.symm.trans hv'
    cases hhigh.symm.trans hw'
    cases hu : path.value r with
    | atom u =>
        rw [hu, Bool.and_eq_true] at htest
        exact not_between hwv htest.1 htest.2
    | _ => rw [hu] at htest; cases htest
  null path t hr hnull o arguments b h := by
    obtain ⟨ha, -, q, hq, rfl⟩ := (decides_iff hr).mp h
    rw [holds_of_apply_of_null (FieldPath.value_eq_null_iff.mpr hnull) hq, decide_eq_true_iff]
    exact nullTestOr_iff_holdsOfNull ha

end FilterContext

end RecordFilter
