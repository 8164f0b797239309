import RecordFilter.Proofs.Schema.Lookup

/-!
# What a filter is refused for

Much can be wrong with a filter at once.  `FilterContext.objections` lists all there is to object
to, each objection for itself and in the order in which they count: the path, the number of
arguments, the operator, and then the arguments as they are used.  Building a filter goes through
the same points step by step and stops at the first fault.

* `Meets`: a step that fails for the first of some objections, or succeeds where there is none.
* `meets_resolve`, `meets_apply`: the steps of building a filter, each with its objections.
* `predicate_firstObjection`: a filter has a predicate exactly when there is no objection, and is
  refused for the first one otherwise.
-/

namespace RecordFilter

open Outcome

/-! ### Objections -/

/-- What there is to object to in a filter. -/
inductive Objection where
  /-- A segment of the path is empty, or there are more than two. -/
  | malformedPath
  | unknownField
  | argumentCount
  | unsupportedOperator
  | coercion (error : CoercionError)
  | emptySeparator
  | emptySequence

namespace Objection

/-- The code under which an objection is reported. -/
def code : Objection → String
  | unknownField => "UNKNOWN_FIELD"
  | unsupportedOperator => "UNSUPPORTED_OPERATOR"
  | coercion _ => "COERCION"
  | malformedPath | argumentCount | emptySeparator | emptySequence => "ARGUMENT"

/-- The coercion that failed, if this is what there is to object to. -/
def coercion? : Objection → Option CoercionError
  | coercion error => some error
  | _ => none

/-- The objection to an argument that is not coerced. -/
def ofCoercion {α : Type} (x : Except CoercionError α) : List Objection :=
  (fault? x).toList.map coercion

end Objection

/-- The objection that a fault is raised for.  A filter is never refused because values of its field
cannot be compared, as no operator that compares suits the field; a page size is no matter of
filters. -/
def FilterFault.objection? : FilterFault → Option Objection
  | .path .emptySegment | .path .tooDeep => some .malformedPath
  | .path (.unknownField ..) => some .unknownField
  | .arity .. => some .argumentCount
  | .unsupportedOperator .. => some .unsupportedOperator
  | .coercion error => some (.coercion error)
  | .emptySeparator => some .emptySeparator
  | .emptySequence _ => some .emptySequence
  | .notComparable _ | .pageSize .. => none

namespace FilterContext

open FieldPath Objection TypeFamily

/-- Objections to a path. -/
def pathObjections (F : TypeFamily) (element : TypeExpr) (text : String) : List Objection :=
  unlessMet ("" ∉ segments text ∧ (segments text).length ≤ 2) .malformedPath ++
    unlessMet (F.typeAlong? true element (segments text)).isSome .unknownField

/-- Objections to an argument that is compared with a field. -/
def operandObjections (F : TypeFamily) (t : TypeExpr) (raw : Raw) : List Objection :=
  match (F.describe t).kind with
  | .atomic c => ofCoercion (raw.coerce c true)
  | .enumeration names => ofCoercion (raw.coerceName (F.describe t).name names true)
  | .collection _ | .composite _ => []

/-- Objections to an argument that is used as a text. -/
def textObjections (raw : Raw) : List Objection := ofCoercion (raw.coerce .string true)

/-- The text that an argument is coerced to. -/
def textOf (raw : Raw) : String :=
  match raw.coerce .string true with
  | .ok (some (.string s)) => s
  | _ => ""

/-- Objections to the arguments of a sequence: to the separator as a text and for being empty, to
the list as a text and for holding nothing, and to its elements. -/
def sequenceObjections (F : TypeFamily) (default : String) (t : TypeExpr) (list : Raw)
    (explicit : Option Raw) : List Objection :=
  let given := explicit.filter fun raw => !raw.isNull
  let separator := (given.map textOf).getD default
  let elements := sequenceElements separator (textOf list)
  given.toList.flatMap textObjections ++ unlessMet (separator ≠ "") .emptySeparator ++
    textObjections list ++ unlessMet (elements ≠ []) .emptySequence ++
    elements.flatMap fun s => operandObjections F t (.scalar (.text s))

/-- Objections to the arguments of an operator, in the order in which it uses them. -/
def argumentObjections (F : TypeFamily) (default : String) (t : TypeExpr) :
    Operator → List Raw → List Objection
  | .isNull, _ | .isNotNull, _ | .collectionIsEmpty, _ | .collectionIsNotEmpty, _ => []
  | .equalTo, arguments | .notEqualTo, arguments | .lessThan, arguments | .lessOrEqual, arguments
  | .greaterThan, arguments | .greaterOrEqual, arguments | .inRange, arguments =>
    arguments.flatMap (operandObjections F t)
  | .stringContains, arguments => arguments.flatMap textObjections
  | .inSequence, [] => []
  | .inSequence, list :: rest => sequenceObjections F default t list rest.head?

/-- All there is to object to in a filter, in the order in which it counts.  Nothing can be said of
operator and arguments where the path leads to no type. -/
def objections (ctx : FilterContext) (f : PropertyFilter) : List Objection :=
  let o := nullTestOr f.operator f.arguments
  pathObjections ctx.family ctx.element f.path ++
    unlessMet (f.operator.accepts f.arguments.length) .argumentCount ++
    (ctx.family.typeAlong? true ctx.element (segments f.path)).toList.flatMap fun t =>
      unlessMet (o ∈ (ctx.family.describe t).shape.operators) .unsupportedOperator ++
        argumentObjections ctx.family ctx.separator t o f.arguments

/-! ### Steps and their objections -/

/-- A step succeeds where there are no objections, and fails for the first one otherwise. -/
abbrev Meets {α : Type} : Except FilterFault α → List Objection → Prop :=
  FailsFor fun fault o => fault.objection? = some o

/-! ### Paths -/

variable {F : TypeFamily} {element t : TypeExpr} {path : FieldPath} {o : Operator}
  {arguments : List Raw}

/-- A text is refused as a path for an empty segment, for a third segment, or otherwise for a field
that is unknown. -/
theorem resolve_eq_error {text : String} {fault : PathFault}
    (h : resolve F element text = .error fault) :
    fault = .emptySegment ∧ "" ∈ segments text ∨
      fault = .tooDeep ∧ "" ∉ segments text ∧ 2 < (segments text).length ∨
      (∃ name typeName, fault = .unknownField name typeName) ∧ "" ∉ segments text ∧
        (segments text).length ≤ 2 := by
  unfold resolve at h
  by_cases hempty : "" ∈ segments text
  · rw [if_pos hempty] at h
    cases h
    exact .inl ⟨rfl, hempty⟩
  · rw [if_neg hempty] at h
    match hnames : segments text with
    | [] => exact absurd (List.map_eq_nil_iff.mp hnames) (List.splitOn_ne_nil _ _)
    | [name] =>
        rw [hnames] at h hempty
        simp only [resolveDirect] at h
        split at h <;> cases h
        exact .inr (.inr ⟨⟨_, _, rfl⟩, hempty, by simp⟩)
    | [outer, inner] =>
        rw [hnames] at h hempty
        simp only [resolveNested] at h
        refine .inr (.inr ⟨?_, hempty, by simp⟩)
        split at h
        · cases h; exact ⟨_, _, rfl⟩
        · split at h
          · split at h <;> cases h
            exact ⟨_, _, rfl⟩
          · cases h; exact ⟨_, _, rfl⟩
    | _ :: _ :: _ :: _ =>
        rw [hnames] at h hempty
        cases h
        exact .inr (.inl ⟨rfl, hempty, by simp⟩)

theorem length_names_le (p : FieldPath) : p.names.length ≤ 2 := by
  obtain ⟨head, tail⟩ := p
  cases tail <;> simp [names]

/-- A path is refused for its form, or else for an unknown field. -/
theorem meets_resolve (F : TypeFamily) (element : TypeExpr) (text : String) :
    Meets ((resolve F element text).mapError .path) (pathObjections F element text) := by
  unfold pathObjections
  cases hr : resolve F element text with
  | ok r =>
      obtain ⟨p, t⟩ := r
      obtain ⟨hnames, hne, ht⟩ := resolve_eq_ok.mp hr
      have hlength : (segments text).length ≤ 2 := hnames ▸ length_names_le p
      rw [unlessMet_pos ⟨hne, hlength⟩, unlessMet_pos (by rw [ht]; rfl)]
      exact .ok (p, t)
  | error fault =>
      obtain ⟨rfl, h⟩ | ⟨rfl, -, h⟩ | ⟨⟨name, typeName, rfl⟩, hne, hlength⟩ := resolve_eq_error hr
      · rw [unlessMet_neg fun hgood => hgood.1 h]
        exact .error _ rfl
      · rw [unlessMet_neg fun hgood => Nat.not_le.mpr h hgood.2]
        exact .error _ rfl
      · rw [unlessMet_pos ⟨hne, hlength⟩, unlessMet_neg]
        · exact .error [] rfl
        · -- a type at the end of the segments would be one that the text resolves to
          intro hsome
          obtain ⟨t, ht⟩ := Option.isSome_iff_exists.mp hsome
          obtain ⟨p, hp⟩ := exists_names_eq_segments hlength
          cases hr.symm.trans (resolve_eq_ok.mpr ⟨hp, hne, ht⟩)

/-! ### Arguments -/

/-- The operators that compare the value of a field with an argument. -/
def comparing : List Operator :=
  [.equalTo, .notEqualTo, .lessThan, .lessOrEqual, .greaterThan, .greaterOrEqual, .inRange,
    .inSequence]

/-- Only atoms and enumerations are compared. -/
theorem comparable_of_comparing {s : Shape} (ho : o ∈ comparing) (h : o ∈ s.operators) :
    s ≠ .collection ∧ s ≠ .composite := by
  constructor
  · rintro rfl
    exact (by decide : ∀ o ∈ comparing, o ∉ Shape.collection.operators) o ho h
  · rintro rfl
    exact (by decide : ∀ o ∈ comparing, o ∉ Shape.composite.operators) o ho h

/-- A coercion that fails is objected to, whatever is made of its result. -/
theorem meets_coercion {α β : Type} {x : Except FilterFault α} {y : Except CoercionError β}
    (hok : ∀ b, y = .ok b → ∃ a, x = .ok a)
    (herror : ∀ e, y = .error e → x = .error (.coercion e)) : Meets x (ofCoercion y) := by
  cases y with
  | ok b =>
      obtain ⟨a, rfl⟩ := hok b rfl
      exact .ok a
  | error e =>
      rw [herror e rfl]
      exact .error [] rfl

/-- An argument that is compared with a field is refused as its coercion is. -/
theorem meets_operand (ho : o ∈ comparing) (h : o ∈ (F.describe t).shape.operators) (raw : Raw) :
    Meets (operand F t raw) (operandObjections F t raw) := by
  obtain ⟨hcollection, hcomposite⟩ := comparable_of_comparing ho h
  unfold Descriptor.shape at hcollection hcomposite
  unfold operand operandObjections
  cases hkind : (F.describe t).kind with
  | atomic c =>
      refine meets_coercion (fun b hb => ?_) fun e he => ?_
      · cases b with
        | none => exact absurd hb (raw.coerce_ne_none c)
        | some a => exact ⟨.atom a, by simp only [hkind, hb]⟩
      · simp only [hkind, he]
  | enumeration names =>
      refine meets_coercion (fun b hb => ?_) fun e he => ?_
      · cases b with
        | none => exact absurd hb (raw.coerceName_ne_none _ names)
        | some name => exact ⟨.enum name, by simp only [hkind, hb]⟩
      · simp only [hkind, he]
  | collection item => rw [hkind] at hcollection; exact absurd rfl hcollection
  | composite fields => rw [hkind] at hcomposite; exact absurd rfl hcomposite

/-- The objections to a comparison are those to its operand. -/
theorem meets_comparison (ho : o ∈ comparing) (h : o ∈ (F.describe t).shape.operators)
    (op : Comparison) (raw : Raw) :
    Meets (comparison F path t op raw) (operandObjections F t raw) :=
  (meets_operand ho h raw).map _

/-- What is coerced to text is a text. -/
theorem textArgument_of_coerce {raw : Raw} {value : Option Atom}
    (h : raw.coerce .string true = .ok value) : textArgument raw = .ok (textOf raw) := by
  unfold textArgument textOf
  rw [h]
  cases value with
  | none => exact absurd h (raw.coerce_ne_none .string)
  | some a =>
      have ha := Raw.coerce_category h
      cases a <;> cases ha
      rfl

theorem meets_textArgument (raw : Raw) : Meets (textArgument raw) (textObjections raw) :=
  meets_coercion (fun _ h => ⟨_, textArgument_of_coerce h⟩) fun e he => by
    unfold textArgument
    rw [he]

theorem textArgument_eq_ok {raw : Raw} {s : String} (h : textArgument raw = .ok s) :
    s = textOf raw := by
  cases hc : raw.coerce .string true with
  | ok value => exact Except.ok.inj (h.symm.trans (textArgument_of_coerce hc))
  | error e => rw [textArgument, hc] at h; cases h

/-! ### Sequences -/

/-- A separator that is given and not null is used in place of the one for all sequences. -/
theorem sequenceSeparator_eq (default : String) (explicit : Option Raw) :
    sequenceSeparator default explicit =
      ((explicit.filter fun raw => !raw.isNull).map textArgument).getD (.ok default) := by
  cases explicit with
  | none => rfl
  | some raw => cases raw <;> rfl

/-- A separator that is null objects to nothing, as the default stands for it. -/
theorem meets_sequenceSeparator (default : String) (explicit : Option Raw) :
    Meets (sequenceSeparator default explicit)
      ((explicit.filter fun raw => !raw.isNull).toList.flatMap textObjections) := by
  rw [sequenceSeparator_eq]
  cases explicit.filter fun raw => !raw.isNull with
  | none => exact .ok default
  | some raw =>
      rw [Option.toList_some, List.flatMap_singleton]
      exact meets_textArgument raw

/-- The separator that is used is the text given, or else the one for all sequences. -/
theorem sequenceSeparator_eq_ok {default separator : String} {explicit : Option Raw}
    (h : sequenceSeparator default explicit = .ok separator) :
    separator = ((explicit.filter fun raw => !raw.isNull).map textOf).getD default := by
  rw [sequenceSeparator_eq] at h
  cases hgiven : explicit.filter fun raw => !raw.isNull with
  | none => rw [hgiven] at h; cases h; rfl
  | some raw => rw [hgiven] at h; exact textArgument_eq_ok h

/-- The arguments of a sequence are refused for what there is to object to in the separator, in the
list, and in the elements. -/
theorem meets_sequence (ho : .inSequence ∈ (F.describe t).shape.operators) (default : String)
    (list : Raw) (explicit : Option Raw) :
    Meets (sequence F default path t list explicit)
      (sequenceObjections F default t list explicit) := by
  unfold sequence sequenceObjections
  simp only [List.append_assoc]
  refine (meets_sequenceSeparator default explicit).bind fun separator hs => ?_
  rw [← sequenceSeparator_eq_ok hs]
  refine .guard Iff.rfl rfl fun _ => ?_
  refine (meets_textArgument list).bind fun text ht => ?_
  rw [← textArgument_eq_ok ht]
  cases sequenceElements separator text with
  | nil => exact .error _ rfl
  | cons first rest =>
      rw [unlessMet_pos (List.cons_ne_nil first rest), List.nil_append, List.flatMap_cons]
      refine (meets_comparison (by decide) ho _ _).bind fun p _ => ?_
      rw [← List.append_nil (rest.flatMap _)]
      exact (FailsFor.mapM (fun s => meets_comparison (by decide) ho _ _) rest).bind fun ps _ =>
        .ok (anyOf p ps)

/-! ### Operators -/

/-- An operator that suits the type, with the right number of arguments, is refused for what there
is to object to in the arguments, in the order in which it uses them. -/
theorem meets_apply (h : o ∈ (F.describe t).shape.operators)
    (ha : o = .isNull ∨ o = .isNotNull ∨ o.accepts arguments.length) (default : String) :
    Meets (apply F default path t o arguments) (argumentObjections F default t o arguments) := by
  have haccepts (hne : o ≠ .isNull) (hne' : o ≠ .isNotNull) : o.accepts arguments.length :=
    (ha.resolve_left hne).resolve_left hne'
  cases o with
  | isNull | isNotNull | collectionIsEmpty | collectionIsNotEmpty => exact .ok _
  | equalTo | notEqualTo | lessThan | lessOrEqual | greaterThan | greaterOrEqual =>
      obtain ⟨a, rfl⟩ := Operator.exists_singleton (haccepts nofun nofun) rfl
      rw [argumentObjections, List.flatMap_singleton]
      exact meets_comparison (by decide) h _ a
  | stringContains =>
      obtain ⟨a, rfl⟩ := Operator.exists_singleton (haccepts nofun nofun) rfl
      rw [argumentObjections, List.flatMap_singleton]
      exact (meets_textArgument a).map _
  | inRange =>
      obtain ⟨low, high, rfl⟩ := Operator.exists_pair (haccepts nofun nofun) rfl
      rw [argumentObjections, List.flatMap_cons, List.flatMap_singleton]
      refine (meets_comparison (by decide) h .ge low).bind fun p _ => ?_
      rw [← List.append_nil (operandObjections F t high)]
      exact (meets_comparison (by decide) h .le high).bind fun q _ => .ok (p.and q)
  | inSequence =>
      obtain ⟨list, rfl⟩ | ⟨list, explicit, rfl⟩ := Operator.exists_list (haccepts nofun nofun)
      · exact meets_sequence h default list none
      · exact meets_sequence h default list (some explicit)

/-- A null test in place of an equality with null takes any arguments, every other operator its
own. -/
theorem nullTestOr_eq (o : Operator) (arguments : List Raw) :
    nullTestOr o arguments = .isNull ∨ nullTestOr o arguments = .isNotNull ∨
      nullTestOr o arguments = o := by
  unfold nullTestOr
  split
  · split
    · exact .inl rfl
    · exact .inr (.inr rfl)
  · split
    · exact .inr (.inl rfl)
    · exact .inr (.inr rfl)
  · exact .inr (.inr rfl)

/-- Building a filter meets the objections to the filter. -/
theorem meets_build (ctx : FilterContext) (f : PropertyFilter) :
    Meets (ctx.build f.path f.operator f.arguments) (ctx.objections f) := by
  -- what is built at the path, once it is resolved
  let rest : FieldPath × TypeExpr → Except FilterFault Predicate := fun r =>
    if !f.operator.accepts f.arguments.length then .error (.arity f.operator f.arguments.length)
    else if nullTestOr f.operator f.arguments ∉ (ctx.family.describe r.2).shape.operators then
      .error (.unsupportedOperator (nullTestOr f.operator f.arguments)
        (ctx.family.declaredName r.2))
    else apply ctx.family ctx.separator r.1 r.2 (nullTestOr f.operator f.arguments) f.arguments
  have hbuild : ctx.build f.path f.operator f.arguments =
      (resolve ctx.family ctx.element f.path).mapError .path >>= rest := by
    unfold build
    cases resolve ctx.family ctx.element f.path with
    | error fault => rfl
    | ok r => simp only [rest, ite_not]; rfl
  unfold objections
  rw [hbuild, List.append_assoc]
  refine (meets_resolve ctx.family ctx.element f.path).bind fun r hr => ?_
  obtain ⟨-, -, ht⟩ := resolve_eq_ok.mp (mapError_eq_ok.mp hr)
  rw [ht, Option.toList_some, List.flatMap_singleton]
  refine .guard (by simp) rfl fun ha => .guard (by simp) rfl fun ho => meets_apply ho ?_ _
  obtain h | h | h := nullTestOr_eq f.operator f.arguments
  · exact .inl h
  · exact .inr (.inl h)
  · exact .inr (.inr (by rw [h]; exact ha))

/-- A filter that has no predicate is refused, with its path, for one of the objections to it. -/
theorem exists_objection {ctx : FilterContext} {f : PropertyFilter} {e : FilterError}
    (h : ctx.predicate f = .error e) :
    e.path = f.path ∧ ∃ ob ∈ ctx.objections f, e.fault.objection? = some ob := by
  have hmeets := meets_build ctx f
  unfold predicate at h
  generalize ctx.build f.path f.operator f.arguments = x at hmeets h
  generalize ctx.objections f = os at hmeets ⊢
  cases hmeets with
  | ok q => cases h
  | error rest hob =>
      cases h
      exact ⟨rfl, _, List.mem_cons_self, hob⟩

/-- The code and the coercion of an error are those of the objection that it is raised for. -/
theorem code_of_objection? {text : String} {fault : FilterFault} {ob : Objection}
    (h : fault.objection? = some ob) :
    FilterError.code ⟨text, fault⟩ = ob.code ∧
      FilterError.coercion? ⟨text, fault⟩ = ob.coercion? := by
  cases fault with
  | path fault => cases fault <;> cases h <;> exact ⟨rfl, rfl⟩
  | _ => cases h <;> exact ⟨rfl, rfl⟩

/-- **What a filter is refused for.**  A filter has a predicate exactly when there is nothing to
object to in it.  Otherwise it is refused with the path as it was given, under the code of the first
objection, and with the coercion that failed if this is the objection. -/
theorem predicate_firstObjection (ctx : FilterContext) (f : PropertyFilter) :
    ((∃ q, ctx.predicate f = .ok q) ↔ ctx.objections f = []) ∧
    (∀ ob rest, ctx.objections f = ob :: rest → ∃ fault, ctx.predicate f = .error ⟨f.path, fault⟩ ∧
      fault.objection? = some ob ∧ FilterError.code ⟨f.path, fault⟩ = ob.code ∧
      FilterError.coercion? ⟨f.path, fault⟩ = ob.coercion?) := by
  have hmeets := meets_build ctx f
  unfold predicate
  generalize ctx.build f.path f.operator f.arguments = x at hmeets ⊢
  generalize ctx.objections f = os at hmeets ⊢
  cases hmeets with
  | ok q => exact ⟨iff_of_true ⟨q, rfl⟩ rfl, nofun⟩
  | error rest h =>
      refine ⟨iff_of_false nofun (List.cons_ne_nil _ rest), ?_⟩
      rintro _ _ ⟨⟩
      exact ⟨_, rfl, h, code_of_objection? h⟩

/-- Too few arguments count before an operator that texts do not have, and an empty separator before
a list that is no text and has no elements. -/
example :
    (peopleContext.objections ⟨"name", .lessThan, []⟩).map Objection.code =
        ["ARGUMENT", "UNSUPPORTED_OPERATOR"] ∧
      (peopleContext.objections ⟨"name", .inSequence, [.map [], .scalar (.text "")]⟩).map
        Objection.code = ["ARGUMENT", "COERCION", "ARGUMENT"] :=
  ⟨rfl, rfl⟩

end FilterContext

end RecordFilter
