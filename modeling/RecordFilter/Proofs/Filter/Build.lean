import RecordFilter.Filter.Compile
import RecordFilter.Proofs.Outcome

/-!
# What a built filter has gone through

A filter has a predicate only if each step of building it gave a result.

* `build_eq_ok`: the path resolves, the number of arguments is right, and the operator, a null test
  in place of an equality with null, suits the type at the path.
* `predicate_eq_apply`: such a filter is decided by its operator.
* `build_of_nonnull`: with arguments that are right in number and not null, the operator decides.
* `sequence_eq_ok`: a sequence has a separator that is not empty, a text, and at least one element;
  it is the disjunction of the equalities with its elements.
* `apply_closed`: what holds of the parts of a predicate holds of the predicate of a filter.
* `ofArguments_of_apply`: an operator that suits the type fails for the sake of its arguments only.
-/

namespace RecordFilter

/-- Whether a fault lies in the arguments, and neither in the path nor in the operator. -/
def FilterFault.ofArguments : FilterFault → Bool
  | .path _ | .unsupportedOperator .. => false
  | _ => true

theorem FilterFault.eq_unsupportedOperator_of_code {text : String} {fault : FilterFault}
    (h : FilterError.code ⟨text, fault⟩ = "UNSUPPORTED_OPERATOR") :
    ∃ o typeName, fault = .unsupportedOperator o typeName := by
  cases fault with
  | unsupportedOperator o typeName => exact ⟨o, typeName, rfl⟩
  | path f => cases f <;> simp [FilterError.code] at h
  | _ => simp [FilterError.code] at h

/-- The path that a single condition reads. -/
def Predicate.path? : Predicate → Option FieldPath
  | isNull path | isNotNull path | compare path .. | contains path .. | count path .. => some path
  | and .. | or .. => none

namespace Operator

variable {o : Operator} {arguments : List Raw}

theorem exists_singleton (h : o.accepts arguments.length) (ho : o.arity = (1, 1)) :
    ∃ a, arguments = [a] := by
  simp only [accepts, ho, Bool.and_eq_true, decide_eq_true_eq] at h
  exact List.length_eq_one_iff.mp (Nat.le_antisymm h.2 h.1)

theorem exists_pair (h : o.accepts arguments.length) (ho : o.arity = (2, 2)) :
    ∃ a b, arguments = [a, b] := by
  simp only [accepts, ho, Bool.and_eq_true, decide_eq_true_eq] at h
  exact List.length_eq_two.mp (Nat.le_antisymm h.2 h.1)

/-- A sequence has a list and perhaps a separator. -/
theorem exists_list (h : inSequence.accepts arguments.length) :
    (∃ list, arguments = [list]) ∨ ∃ list explicit, arguments = [list, explicit] := by
  match arguments, h with
  | [list], _ => exact .inl ⟨list, rfl⟩
  | [list, explicit], _ => exact .inr ⟨list, explicit, rfl⟩

end Operator

namespace FilterContext

open Outcome

variable {ctx : FilterContext} {F : TypeFamily} {path : FieldPath} {t : TypeExpr}

/-- A leaf is built where the path resolves, the number of arguments fits, the type has the operator
and the arguments are accepted. -/
theorem build_eq_ok {text : String} {o : Operator} {arguments : List Raw} {q : Predicate} :
    ctx.build text o arguments = .ok q ↔
      ∃ path t, FieldPath.resolve ctx.family ctx.element text = .ok (path, t) ∧
        o.accepts arguments.length ∧
        nullTestOr o arguments ∈ (ctx.family.describe t).shape.operators ∧
        apply ctx.family ctx.separator path t (nullTestOr o arguments) arguments = .ok q := by
  unfold build
  cases hr : FieldPath.resolve ctx.family ctx.element text with
  | error fault => refine ⟨fun h => ?_, fun ⟨_, _, h, _⟩ => ?_⟩ <;> cases h
  | ok r =>
      obtain ⟨path, t⟩ := r
      constructor
      · intro h
        dsimp only at h
        split at h
        · cases h
        · rename_i ha
          split at h
          · rename_i ho
            exact ⟨path, t, rfl, by simpa using ha, ho, h⟩
          · cases h
      · rintro ⟨_, _, h, ha, ho, hq⟩
        cases h
        dsimp only
        rw [if_neg (by simp [ha]), if_pos ho, hq]

/-- A filter on a path that resolves, with arguments that are right in number, is decided by the
operator if this suits the type at the path. -/
theorem predicate_eq_apply {f : PropertyFilter}
    (hr : FieldPath.resolve ctx.family ctx.element f.path = .ok (path, t))
    (ha : f.operator.accepts f.arguments.length)
    (ho : nullTestOr f.operator f.arguments ∈ (ctx.family.describe t).shape.operators) :
    ctx.predicate f =
      (apply ctx.family ctx.separator path t (nullTestOr f.operator f.arguments)
        f.arguments).mapError (⟨f.path, ·⟩) := by
  rw [predicate, build, hr]
  simp only [ha, ho, if_pos]
  rfl

/-- Without a null among the arguments an operator stays as it is. -/
theorem nullTestOr_of_nonnull {o : Operator} {arguments : List Raw}
    (h : ∀ raw ∈ arguments, raw.isNull = false) : nullTestOr o arguments = o := by
  unfold nullTestOr
  split
  · rw [h _ List.mem_cons_self]; rfl
  · rw [h _ List.mem_cons_self]; rfl
  · rfl

/-- With arguments that are right in number and not null, the operator decides. -/
theorem build_of_nonnull {text : String} {o : Operator} {arguments : List Raw}
    (hr : FieldPath.resolve ctx.family ctx.element text = .ok (path, t))
    (ha : o.accepts arguments.length) (hn : ∀ raw ∈ arguments, raw.isNull = false) :
    ctx.build text o arguments =
      if o ∈ (ctx.family.describe t).shape.operators then
        apply ctx.family ctx.separator path t o arguments
      else .error (.unsupportedOperator o (ctx.family.declaredName t)) := by
  rw [build, hr]
  simp only [ha, nullTestOr_of_nonnull hn]
  rfl

theorem predicate_eq_ok {f : PropertyFilter} {q : Predicate} :
    ctx.predicate f = .ok q ↔ ctx.build f.path f.operator f.arguments = .ok q :=
  mapError_eq_ok

/-- Equality with one element of a sequence. -/
def equalsElement (F : TypeFamily) (path : FieldPath) (t : TypeExpr) (s : String) :
    Except FilterFault Predicate :=
  comparison F path t .eq (.scalar (.text s))

/-- A sequence is built from a separator, the pieces of the list and an operand for each piece. -/
theorem sequence_eq_ok {default : String} {list : Raw} {explicit : Option Raw} {q : Predicate} :
    sequence F default path t list explicit = .ok q ↔
      ∃ separator text first rest p ps, sequenceSeparator default explicit = .ok separator ∧
        separator ≠ "" ∧ textArgument list = .ok text ∧
        sequenceElements separator text = first :: rest ∧
        equalsElement F path t first = .ok p ∧ rest.mapM (equalsElement F path t) = .ok ps ∧
        anyOf p ps = q := by
  unfold sequence
  rw [bind_eq_ok]
  constructor
  · rintro ⟨separator, hs, h⟩
    split at h
    · cases h
    · rename_i hne
      obtain ⟨text, ht, h⟩ := bind_eq_ok.mp h
      split at h
      · cases h
      · rename_i first rest hl
        obtain ⟨p, hp, h⟩ := bind_eq_ok.mp h
        obtain ⟨ps, hps, h⟩ := bind_eq_ok.mp h
        cases h
        exact ⟨separator, text, first, rest, p, ps, hs, hne, ht, hl, hp, hps, rfl⟩
  · rintro ⟨separator, text, first, rest, p, ps, hs, hne, ht, hl, hp, hps, rfl⟩
    refine ⟨separator, hs, ?_⟩
    rw [if_neg hne]
    refine bind_eq_ok.mpr ⟨text, ht, ?_⟩
    rw [hl]
    exact bind_eq_ok.mpr ⟨p, hp, bind_eq_ok.mpr ⟨ps, hps, rfl⟩⟩

/-! ### What filters are made of -/

section Closed

variable {P : Predicate → Prop} (or_closed : ∀ p q, P p → P q → P (.or p q))
include or_closed

theorem anyOf_closed {p : Predicate} {qs : List Predicate} (hp : P p) (hs : ∀ q ∈ qs, P q) :
    P (anyOf p qs) := by
  unfold anyOf
  induction qs generalizing p with
  | nil => exact hp
  | cons q qs ih =>
      exact ih (or_closed p q hp (hs q List.mem_cons_self)) fun u hu =>
        hs u (List.mem_cons_of_mem _ hu)

/-- What disjunction keeps holds of a sequence if it holds of the equalities. -/
theorem sequence_closed {default : String} {list : Raw} {explicit : Option Raw} {q : Predicate}
    (hequals : ∀ raw p, comparison F path t .eq raw = .ok p → P p)
    (h : sequence F default path t list explicit = .ok q) : P q := by
  obtain ⟨-, -, first, rest, p, ps, -, -, -, -, hf, hr, rfl⟩ := sequence_eq_ok.mp h
  refine anyOf_closed or_closed (hequals _ p hf) fun q' hq' => ?_
  obtain ⟨s, -, hs⟩ := exists_of_mapM hr hq'
  exact hequals _ q' hs

/-- What holds of the predicates that an operator is made of, and is kept by joining them, holds of
the predicate of a filter.  Only the operators that need an order make comparisons that need one. -/
theorem apply_closed (and_closed : ∀ p q, P p → P q → P (.and p q)) {separator : String}
    {o : Operator} {arguments : List Raw} {q : Predicate} (hnull : P (.isNull path))
    (hnotNull : P (.isNotNull path))
    (hcomparison : ∀ op raw p, (op = .eq ∨ op = .ne ∨
      o ∈ [.lessThan, .lessOrEqual, .greaterThan, .greaterOrEqual, .inRange]) →
      comparison F path t op raw = .ok p → P p)
    (hcontains : o = .stringContains → ∀ needle, P (.contains path needle))
    (hcount : ∀ op, (o = .collectionIsEmpty ∧ op = .eq ∨ o = .collectionIsNotEmpty ∧ op = .gt) →
      P (.count path op 0))
    (h : apply F separator path t o arguments = .ok q) : P q := by
  unfold apply at h
  split at h
  · cases h; exact hnull
  · cases h; exact hnotNull
  -- two comparisons that need no order, and four that do
  · exact hcomparison _ _ q (.inl rfl) h
  · exact hcomparison _ _ q (.inr (.inl rfl)) h
  · exact hcomparison _ _ q (.inr (.inr (by decide))) h
  · exact hcomparison _ _ q (.inr (.inr (by decide))) h
  · exact hcomparison _ _ q (.inr (.inr (by decide))) h
  · exact hcomparison _ _ q (.inr (.inr (by decide))) h
  -- a range is two comparisons, a sequence any number of equalities
  · obtain ⟨p, hlow, h⟩ := bind_eq_ok.mp h
    obtain ⟨p', hhigh, h⟩ := bind_eq_ok.mp h
    cases h
    exact and_closed p p' (hcomparison _ _ p (.inr (.inr (by decide))) hlow)
      (hcomparison _ _ p' (.inr (.inr (by decide))) hhigh)
  · exact sequence_closed or_closed (fun raw p => hcomparison _ raw p (.inl rfl)) h
  · exact sequence_closed or_closed (fun raw p => hcomparison _ raw p (.inl rfl)) h
  · obtain ⟨needle, -, rfl⟩ := map_eq_ok.mp h
    exact hcontains rfl needle
  · cases h; exact hcount _ (.inl ⟨rfl, rfl⟩)
  · cases h; exact hcount _ (.inr ⟨rfl, rfl⟩)
  · cases h

end Closed

/-! ### Faults of arguments -/

/-- A refused operand is a fault of the arguments. -/
theorem ofArguments_of_operand {raw : Raw} {fault : FilterFault}
    (h : operand F t raw = .error fault) : fault.ofArguments := by
  simp only [operand] at h
  split at h
  · split at h <;> cases h <;> rfl
  · split at h <;> cases h <;> rfl
  · cases h; rfl
  · cases h; rfl

theorem ofArguments_of_comparison {op : Comparison} {raw : Raw} {fault : FilterFault}
    (h : comparison F path t op raw = .error fault) : fault.ofArguments :=
  ofArguments_of_operand (map_eq_error.mp h)

theorem ofArguments_of_textArgument {raw : Raw} {fault : FilterFault}
    (h : textArgument raw = .error fault) : fault.ofArguments := by
  simp only [textArgument] at h
  split at h <;> cases h <;> rfl

/-- So is whatever a sequence fails with. -/
theorem ofArguments_of_sequence {default : String} {list : Raw} {explicit : Option Raw}
    {fault : FilterFault} (h : sequence F default path t list explicit = .error fault) :
    fault.ofArguments := by
  unfold sequence at h
  rcases bind_eq_error.mp h with hs | ⟨separator, -, h⟩
  · unfold sequenceSeparator at hs
    split at hs
    · cases hs
    · cases hs
    · exact ofArguments_of_textArgument hs
  · split at h
    · cases h; rfl
    · rcases bind_eq_error.mp h with ht | ⟨text, -, h⟩
      · exact ofArguments_of_textArgument ht
      · split at h
        · cases h; rfl
        · -- the first element that is no value of the type gives the fault
          rcases bind_eq_error.mp h with hp | ⟨p, -, h⟩
          · exact ofArguments_of_comparison hp
          · rcases bind_eq_error.mp h with hps | ⟨ps, -, h⟩
            · obtain ⟨s, -, hs⟩ := exists_of_mapM_eq_error hps
              exact ofArguments_of_comparison hs
            · cases h

/-- An operator that suits the type fails for the sake of its arguments only. -/
theorem ofArguments_of_apply {separator : String} {o : Operator} {arguments : List Raw}
    {fault : FilterFault} (h : apply F separator path t o arguments = .error fault) :
    fault.ofArguments := by
  unfold apply at h
  split at h
  · cases h
  · cases h
  · exact ofArguments_of_comparison h
  · exact ofArguments_of_comparison h
  · exact ofArguments_of_comparison h
  · exact ofArguments_of_comparison h
  · exact ofArguments_of_comparison h
  · exact ofArguments_of_comparison h
  -- a range is two comparisons
  · rcases bind_eq_error.mp h with hlow | ⟨p, -, h⟩
    · exact ofArguments_of_comparison hlow
    · rcases bind_eq_error.mp h with hhigh | ⟨q, -, h⟩
      · exact ofArguments_of_comparison hhigh
      · cases h
  · exact ofArguments_of_sequence h
  · exact ofArguments_of_sequence h
  · exact ofArguments_of_textArgument (map_eq_error.mp h)
  · cases h
  · cases h
  · cases h; rfl

/-- With arguments that are right in number and not null, a filter is refused for its operator
exactly when the operator does not suit the type at the path. -/
theorem unsupportedOperator_iff {text : String} {o : Operator} {arguments : List Raw}
    (hr : FieldPath.resolve ctx.family ctx.element text = .ok (path, t))
    (ha : o.accepts arguments.length) (hn : ∀ raw ∈ arguments, raw.isNull = false) :
    (∃ e, ctx.predicate ⟨text, o, arguments⟩ = .error e ∧ e.code = "UNSUPPORTED_OPERATOR") ↔
      o ∉ (ctx.family.describe t).shape.operators := by
  simp only [predicate, build_of_nonnull hr ha hn]
  constructor
  · rintro ⟨e, he, hcode⟩ ho
    rw [if_pos ho] at he
    cases happly : apply ctx.family ctx.separator path t o arguments with
    | error fault =>
        rw [happly] at he
        cases he
        have hfault := ofArguments_of_apply happly
        obtain ⟨o', typeName, rfl⟩ := FilterFault.eq_unsupportedOperator_of_code hcode
        cases hfault
    | ok q => rw [happly] at he; cases he
  · intro ho
    rw [if_neg ho]
    exact ⟨_, rfl, rfl⟩

end FilterContext

end RecordFilter
