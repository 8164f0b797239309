import RecordFilter.Proofs.Filter.Meaning
import RecordFilter.Proofs.Filter.Refusal
import RecordFilter.Proofs.Text.Pieces

/-!
# Sequences as disjunctions

A filter for membership in a sequence is another way to write a tree: the one that tests for
equality with the first element of the sequence, or with one of the others.  The filter finds its
elements in a text, the tree has them in filters of their own, and both make the same predicate or
fail for the same element.

* `compile_equalities`: a tree of equalities is compiled from its filters, one after the other.
* `apply_inSequence`: a sequence is compiled from its elements, one after the other.
* `predicate_inSequence`: the filter and the tree compared, with what becomes of them.
-/

namespace RecordFilter

open Outcome

/-- The filter for equality with a text. -/
def PropertyFilter.equality (path s : String) : PropertyFilter :=
  ⟨path, .equalTo, [.scalar (.text s)]⟩

/-- The tree for equality with a text or with one of others. -/
def FilterTree.equalities (path first : String) (rest : List String) : FilterTree :=
  .node (.equality path first) (some .or) (rest.map fun s => .single (.equality path s))

/-- What is ever found in a sequence can be told apart. -/
theorem Shape.equalTo_of_inSequence (s : Shape) :
    .inSequence ∈ s.operators → .equalTo ∈ s.operators :=
  operators_induction (P := fun ops => .inSequence ∈ ops → .equalTo ∈ ops) (by decide) s

namespace FilterContext

variable {ctx : FilterContext} {F : TypeFamily} {path : FieldPath} {t : TypeExpr}
  {text default list separator : String} {arguments : List Raw}

/-! ### The tree -/

theorem compileOthers_singles (ctx : FilterContext) (p : Predicate) (fs : List PropertyFilter) :
    ctx.compileOthers .or p (fs.map .single) = (fs.mapM ctx.predicate).map (anyOf p) := by
  -- the predicate joined so far grows with each filter
  induction fs generalizing p with
  | nil => rfl
  | cons f fs ih =>
      rw [List.map_cons, compileOthers, FilterTree.single, compile_node_none, List.mapM_cons]
      cases ctx.predicate f with
      | error e => rfl
      | ok q =>
          refine (ih (p.or q)).trans ?_
          cases fs.mapM ctx.predicate with
          | error e => rfl
          | ok qs => rfl

/-- A tree of equalities is compiled from its filters, one after the other. -/
theorem compile_equalities (first : String) (rest : List String) :
    ctx.compile (.equalities text first rest) = (do
      let p ← ctx.predicate (.equality text first)
      let ps ← rest.mapM fun s => ctx.predicate (.equality text s)
      return anyOf p ps) := by
  have hothers (p : Predicate) := compileOthers_singles ctx p (rest.map (.equality text))
  rw [List.map_map, List.mapM_map] at hothers
  rw [FilterTree.equalities, compile]
  cases ctx.predicate (.equality text first) with
  | error e => rfl
  | ok p => exact (hothers p).trans (map_eq_bind _ _)

/-- An equality with a piece is the comparison that a sequence makes of the piece. -/
theorem predicate_equality
    (hr : FieldPath.resolve ctx.family ctx.element text = .ok (path, t))
    (ho : .equalTo ∈ (ctx.family.describe t).shape.operators) (s : String) :
    ctx.predicate (.equality text s) =
      (equalsElement ctx.family path t s).mapError (⟨text, ·⟩) :=
  predicate_eq_apply (f := .equality text s) hr rfl ho

/-! ### The filter -/

/-- The arguments from which a list and the separator of its elements are read.  The separator is
the one for all sequences unless another is given. -/
inductive SequenceArguments (default list : String) : String → List Raw → Prop where
  | given {raw explicit : Raw} {separator : String} :
      textArgument raw = .ok list → textArgument explicit = .ok separator →
      SequenceArguments default list separator [raw, explicit]
  | default {raw : Raw} :
      textArgument raw = .ok list → SequenceArguments default list default [raw]
  | null {raw : Raw} :
      textArgument raw = .ok list → SequenceArguments default list default [raw, .null]

/-- The predicate of a sequence, given its separator and its list. -/
theorem sequence_eq {raw : Raw} {explicit : Option Raw}
    (hs : sequenceSeparator default explicit = .ok separator) (hne : separator ≠ "")
    (hl : textArgument raw = .ok list) :
    sequence F default path t raw explicit =
      match sequenceElements separator list with
      | [] => .error (.emptySequence list)
      | first :: rest => do
        let p ← equalsElement F path t first
        let ps ← rest.mapM (equalsElement F path t)
        return anyOf p ps := by
  rw [sequence, hs]
  change (if separator = "" then _ else _) = _
  rw [if_neg hne, hl]
  rfl

/-- A separator that is given is no null. -/
theorem sequenceSeparator_given {explicit : Raw} (h : textArgument explicit = .ok separator) :
    sequenceSeparator default (some explicit) = .ok separator := by
  cases explicit with
  | null => cases h
  | _ => exact h

/-- A sequence is compiled from its elements, one after the other. -/
theorem apply_inSequence (h : SequenceArguments default list separator arguments)
    (hne : separator ≠ "") :
    apply F default path t .inSequence arguments =
      match sequenceElements separator list with
      | [] => .error (.emptySequence list)
      | first :: rest => do
        let p ← equalsElement F path t first
        let ps ← rest.mapM (equalsElement F path t)
        return anyOf p ps := by
  cases h with
  | given hl hs => exact sequence_eq (sequenceSeparator_given hs) hne hl
  | @default raw hl =>
      change sequence F _ path t raw none = _
      exact sequence_eq rfl hne hl
  | @null raw hl =>
      change sequence F _ path t raw (some .null) = _
      exact sequence_eq rfl hne hl

/-- A sequence passes the checks before the arguments, so that only these can refuse it. -/
theorem predicate_sequence
    (hr : FieldPath.resolve ctx.family ctx.element text = .ok (path, t))
    (ho : .inSequence ∈ (ctx.family.describe t).shape.operators)
    (h : SequenceArguments ctx.separator list separator arguments) :
    ctx.predicate ⟨text, .inSequence, arguments⟩ =
      (apply ctx.family ctx.separator path t .inSequence arguments).mapError (⟨text, ·⟩) := by
  have ha : Operator.inSequence.accepts arguments.length := by cases h <;> rfl
  exact predicate_eq_apply (f := ⟨text, .inSequence, arguments⟩) hr ha ho

/-- The filter and the tree make the same predicate, or fail for the same element. -/
theorem predicate_eq_compile
    (hr : FieldPath.resolve ctx.family ctx.element text = .ok (path, t))
    (ho : .inSequence ∈ (ctx.family.describe t).shape.operators)
    (h : SequenceArguments ctx.separator list separator arguments) (hne : separator ≠ "")
    {first : String} {rest : List String}
    (helements : sequenceElements separator list = first :: rest) :
    ctx.predicate ⟨text, .inSequence, arguments⟩ = ctx.compile (.equalities text first rest) := by
  have hequality := predicate_equality hr (Shape.equalTo_of_inSequence _ ho)
  rw [predicate_sequence hr ho h, apply_inSequence h hne, helements, compile_equalities]
  simp only [hequality, mapError_bind, mapError_mapM]
  rfl

/-! ### What becomes of the elements -/

/-- An element of a sequence, compared with the values of a type. -/
def elementOperand (F : TypeFamily) (t : TypeExpr) (s : String) : Except FilterFault Operand :=
  operand F t (.scalar (.text s))

/-- Equality with one value or with another of several, from left to right. -/
def equalsAny (path : FieldPath) (v : Operand) (vs : List Operand) : Predicate :=
  anyOf (.compare path .eq v) (vs.map (.compare path .eq))

theorem equalsElement_eq_ok {s : String} {v : Operand} (h : elementOperand F t s = .ok v) :
    equalsElement F path t s = .ok (.compare path .eq v) :=
  map_eq_ok.mpr ⟨v, h, rfl⟩

theorem mapM_equalsElement_eq_ok {ss : List String} {vs : List Operand}
    (h : List.Forall₂ (fun s v => elementOperand F t s = .ok v) ss vs) :
    ss.mapM (equalsElement F path t) = .ok (vs.map (.compare path .eq)) := by
  rw [mapM_eq_ok, List.forall₂_map_right_iff]
  exact h.imp fun _ _ => equalsElement_eq_ok

/-- An argument that cannot be compared with a type that can be is refused for its coercion. -/
theorem coercion_of_operand {o : Operator} {raw : Raw} {fault : FilterFault} (ho : o ∈ comparing)
    (h : o ∈ (F.describe t).shape.operators) (hfault : operand F t raw = .error fault) :
    ∃ e, fault = .coercion e := by
  obtain ⟨hcollection, hcomposite⟩ := comparable_of_comparing ho h
  unfold Descriptor.shape at hcollection hcomposite
  simp only [operand] at hfault
  split at hfault
  · split at hfault <;> cases hfault <;> exact ⟨_, rfl⟩
  · split at hfault <;> cases hfault <;> exact ⟨_, rfl⟩
  · rename_i hkind
    rw [hkind] at hcollection
    exact absurd rfl hcollection
  · rename_i hkind
    rw [hkind] at hcomposite
    exact absurd rfl hcomposite

/-- The elements of a sequence are all values of the type, or there is a first one that is not. -/
theorem elements_outcome (ho : .inSequence ∈ (F.describe t).shape.operators) (first : String)
    (rest : List String) :
    (∃ v vs, elementOperand F t first = .ok v ∧
      List.Forall₂ (fun s v => elementOperand F t s = .ok v) rest vs) ∨
    ∃ before s after e, first :: rest = before ++ s :: after ∧
      (∀ s' ∈ before, ∃ v, elementOperand F t s' = .ok v) ∧
      elementOperand F t s = .error (.coercion e) := by
  cases hvs : (first :: rest).mapM (elementOperand F t) with
  | ok vs =>
      obtain ⟨v, vs, hv, hvs, -⟩ := List.forall₂_cons_left_iff.mp (mapM_eq_ok.mp hvs)
      exact .inl ⟨v, vs, hv, hvs⟩
  | error fault =>
      obtain ⟨before, s, after, hsplit, hbefore, hs⟩ := mapM_eq_error.mp hvs
      obtain ⟨e, rfl⟩ := coercion_of_operand (by decide) ho hs
      exact .inr ⟨before, s, after, e, hsplit, hbefore, hs⟩

/-- A disjunction of equalities fails for the first element that is no value of the type. -/
theorem equalities_eq_error {first : String} {rest before after : List String} {s : String}
    {fault : FilterFault} (hsplit : first :: rest = before ++ s :: after)
    (hbefore : ∀ s' ∈ before, ∃ v, elementOperand F t s' = .ok v)
    (hs : elementOperand F t s = .error fault) :
    (do
      let p ← equalsElement F path t first
      let ps ← rest.mapM (equalsElement F path t)
      return anyOf p ps) = .error fault := by
  have hall : (first :: rest).mapM (equalsElement F path t) = .error fault := by
    refine mapM_eq_error.mpr ⟨before, s, after, hsplit, fun s' hs' => ?_, map_eq_error.mpr hs⟩
    obtain ⟨v, hv⟩ := hbefore s' hs'
    exact ⟨_, equalsElement_eq_ok hv⟩
  rw [List.mapM_cons] at hall
  rcases bind_eq_error.mp hall with hp | ⟨p, hp, hall⟩
  · exact bind_eq_error.mpr (.inl hp)
  · refine bind_eq_error.mpr (.inr ⟨p, hp, ?_⟩)
    rcases bind_eq_error.mp hall with hps | ⟨ps, -, hall⟩
    · exact bind_eq_error.mpr (.inl hps)
    · cases hall

/-- **Sequences are disjunctions of equalities.**  A list text has exactly one list of pieces
between the occurrences of a separator that is not empty.  If the pieces hold no element, the filter
for a sequence is refused as one without elements.  Otherwise it comes to the same as the tree of
the filters for equality with the elements: either every element is a value of the type, and both
make the disjunction of the equalities from left to right; or both fail for the coercion of the
first element that is none. -/
theorem predicate_inSequence (ctx : FilterContext) {text list separator : String}
    {arguments : List Raw} {path : FieldPath} {t : TypeExpr}
    (hr : FieldPath.resolve ctx.family ctx.element text = .ok (path, t))
    (ho : .inSequence ∈ (ctx.family.describe t).shape.operators)
    (h : SequenceArguments ctx.separator list separator arguments) (hne : separator ≠ "") :
    ∃ pieces, (∀ ps, Text.Pieces separator.toList list.toList ps ↔ ps = pieces) ∧
      match Text.elements pieces with
      | [] => ctx.predicate ⟨text, .inSequence, arguments⟩ = .error ⟨text, .emptySequence list⟩
      | first :: rest =>
        ctx.predicate ⟨text, .inSequence, arguments⟩ = ctx.compile (.equalities text first rest) ∧
        ((∃ v vs, elementOperand ctx.family t first = .ok v ∧
            List.Forall₂ (fun s v => elementOperand ctx.family t s = .ok v) rest vs ∧
            ctx.predicate ⟨text, .inSequence, arguments⟩ = .ok (equalsAny path v vs)) ∨
          ∃ before s after e, first :: rest = before ++ s :: after ∧
            (∀ s' ∈ before, ∃ v, elementOperand ctx.family t s' = .ok v) ∧
            elementOperand ctx.family t s = .error (.coercion e) ∧
            ctx.predicate ⟨text, .inSequence, arguments⟩ = .error ⟨text, .coercion e⟩) := by
  have hne' : separator.toList ≠ [] := by simpa using hne
  obtain ⟨pieces, hpieces⟩ := Text.exists_pieces hne' list.toList
  refine ⟨pieces, fun ps => ?_, ?_⟩
  · rw [Text.pieces_iff hne', (Text.pieces_iff hne').mp hpieces, eq_comm]
  have helements := sequenceElements_eq hne hpieces
  have hpredicate := predicate_sequence hr ho h
  rw [apply_inSequence h hne] at hpredicate
  cases hcases : Text.elements pieces with
  | nil =>
      rw [helements, hcases] at hpredicate
      exact hpredicate
  | cons first rest =>
      rw [hcases] at helements
      refine ⟨predicate_eq_compile hr ho h hne helements, ?_⟩
      rw [helements] at hpredicate
      rcases elements_outcome ho first rest with
        ⟨v, vs, hv, hvs⟩ | ⟨before, s, after, e, hsplit, hbefore, hs⟩
      · refine .inl ⟨v, vs, hv, hvs, hpredicate.trans ?_⟩
        dsimp only
        rw [equalsElement_eq_ok hv, mapM_equalsElement_eq_ok hvs]
        rfl
      · refine .inr ⟨before, s, after, e, hsplit, hbefore, hs, hpredicate.trans ?_⟩
        dsimp only
        rw [equalities_eq_error hsplit hbefore hs]
        rfl

/-- Statuses between double hyphens; where three stand in a row, the third is part of a status. -/
def dashedStatuses : List Raw :=
  [.scalar (.text "Active-- --Closed---Gone--?"), .scalar (.text "--")]

/-- Two pieces are no status; the filter and the tree fail for the first of them. -/
theorem dashedStatuses_equalities :
    peopleContext.predicate ⟨"status", .inSequence, dashedStatuses⟩ =
        peopleContext.compile (.equalities "status" "Active" ["Closed", "-Gone", "?"]) ∧
      ∃ e, elementOperand Sample.family (.defined "Status") "-Gone" = .error (.coercion e) ∧
        peopleContext.predicate ⟨"status", .inSequence, dashedStatuses⟩ =
          .error ⟨"status", .coercion e⟩ := by
  have hr : FieldPath.resolve Sample.family Sample.person.type "status" =
      .ok (⟨"status", none⟩, .defined "Status") := rfl
  have hseparator : ("--" : String) ≠ "" := by decide
  have harguments : SequenceArguments "," "Active-- --Closed---Gone--?" "--" dashedStatuses :=
    .given rfl rfl
  obtain ⟨pieces, hpieces, h⟩ :=
    predicate_inSequence peopleContext hr (by decide) harguments hseparator
  obtain rfl := (hpieces _).mp ((Text.pieces_iff (by decide)).mpr rfl)
  exact ⟨h.1, _, rfl, rfl⟩

end FilterContext

end RecordFilter
