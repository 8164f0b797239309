import RecordFilter.Proofs.Coercion.Category
import RecordFilter.Proofs.Filter.Active
import RecordFilter.Proofs.Filter.Build
import RecordFilter.Proofs.Filter.Meaning

/-!
# Compiled predicates are well typed

`FieldPath.Leads` says to which type a path leads in a composite, and `Predicate.WellTyped` which
predicates fit a type: the path of every leaf leads to a type, an atomic operand has the category
of that type, a named operand is one of its names and is only told apart, texts alone are searched
and never ordered, and only collections are counted, to ask whether they are empty.

* `leads_of_resolve`: a text that resolves names a path that leads somewhere.
* `wellTyped_of_apply`: an operator that suits the type at a path makes a predicate that fits.
* `compile_wellTyped`: whatever tree is compiled, the predicate fits the type it is compiled for.
-/

namespace RecordFilter

/-! ### Paths -/

/-- The type that a path leads to: that of a field, or of a field of a composite field. -/
inductive FieldPath.Leads (F : TypeFamily) (element : TypeExpr) : FieldPath → TypeExpr → Prop where
  | direct {name : String} {f : FieldDescriptor} :
      (F.describe element).field? name = some f → Leads F element ⟨name, none⟩ f.type
  | nested {outer inner : String} {f g : FieldDescriptor} :
      (F.describe element).field? outer = some f → (F.describe f.type).shape = .composite →
      (F.describe f.type).field? inner = some g → Leads F element ⟨outer, some inner⟩ g.type

theorem Descriptor.name_of_field? {d : Descriptor} {name : String} {f : FieldDescriptor}
    (h : d.field? name = some f) : f.name = name := by
  obtain ⟨fields, -, hf⟩ := Option.bind_eq_some_iff.mp h
  simpa using List.find?_some hf

namespace FieldPath

variable {F : TypeFamily} {element t : TypeExpr} {p : FieldPath}

theorem leads_of_resolveDirect {name : String} (h : resolveDirect F element name = .ok (p, t)) :
    p.Leads F element t := by
  simp only [resolveDirect] at h
  split at h
  · cases h
  · rename_i f hf
    cases h
    rw [Descriptor.name_of_field? hf]
    exact .direct hf

theorem leads_of_resolveNested {outer inner : String}
    (h : resolveNested F element outer inner = .ok (p, t)) : p.Leads F element t := by
  simp only [resolveNested] at h
  split at h
  · cases h
  · rename_i f hf
    split at h
    · rename_i hc
      split at h
      · cases h
      · rename_i g hg
        cases h
        rw [Descriptor.name_of_field? hf, Descriptor.name_of_field? hg]
        exact .nested hf hc hg
    · cases h

/-- A text that resolves names a path that leads to the type at its end. -/
theorem leads_of_resolve {text : String} (h : resolve F element text = .ok (p, t)) :
    p.Leads F element t := by
  simp only [resolve] at h
  split at h
  · cases h
  · split at h
    · exact leads_of_resolveDirect h
    · exact leads_of_resolveNested h
    · cases h

end FieldPath

/-! ### Typing -/

/-- The comparisons that need an order. -/
def Comparison.orders : Comparison → Bool
  | .eq | .ne => false
  | .lt | .le | .gt | .ge => true

/-- The predicates that fit a type. -/
inductive Predicate.WellTyped (F : TypeFamily) (element : TypeExpr) : Predicate → Prop where
  | isNull {p : FieldPath} {t : TypeExpr} :
      p.Leads F element t → WellTyped F element (.isNull p)
  | isNotNull {p : FieldPath} {t : TypeExpr} :
      p.Leads F element t → WellTyped F element (.isNotNull p)
  | atom {p : FieldPath} {t : TypeExpr} {op : Comparison} {a : Atom} :
      p.Leads F element t → (F.describe t).kind = .atomic a.category →
      (op.orders → a.category ≠ .string) → WellTyped F element (.compare p op (.atom a))
  | enum {p : FieldPath} {t : TypeExpr} {op : Comparison} {name : String} {names : List String} :
      p.Leads F element t → (F.describe t).kind = .enumeration names → name ∈ names →
      ¬ op.orders → WellTyped F element (.compare p op (.enum name))
  | contains {p : FieldPath} {t : TypeExpr} {needle : String} :
      p.Leads F element t → (F.describe t).kind = .atomic .string →
      WellTyped F element (.contains p needle)
  | count {p : FieldPath} {t item : TypeExpr} {op : Comparison} :
      p.Leads F element t → (F.describe t).kind = .collection item → op = .eq ∨ op = .gt →
      WellTyped F element (.count p op 0)
  | and {q q' : Predicate} :
      WellTyped F element q → WellTyped F element q' → WellTyped F element (.and q q')
  | or {q q' : Predicate} :
      WellTyped F element q → WellTyped F element q' → WellTyped F element (.or q q')

/-! ### The operators of a type -/

namespace Descriptor

variable {d : Descriptor}

theorem kind_of_shape_atomic {c : Category} (h : d.shape = .atomic c) : d.kind = .atomic c := by
  unfold shape at h
  cases hk : d.kind <;> rw [hk] at h <;> cases h
  rfl

theorem kind_of_shape_collection (h : d.shape = .collection) :
    ∃ item, d.kind = .collection item := by
  unfold shape at h
  cases hk : d.kind <;> rw [hk] at h <;> cases h
  exact ⟨_, rfl⟩

end Descriptor

namespace Shape

/-- The operators that compare by order. -/
def ordering : List Operator :=
  [.lessThan, .lessOrEqual, .greaterThan, .greaterOrEqual, .inRange]

theorem categoryOperators_of_ne_string {c : Category} (h : c ≠ .string) :
    categoryOperators c = .ofList [.isNull, .isNotNull, .equalTo, .notEqualTo, .lessThan,
      .lessOrEqual, .greaterThan, .greaterOrEqual, .inRange, .inSequence] := by
  unfold categoryOperators
  split
  · exact absurd rfl h
  · rfl

/-- What holds of the operators of five shapes holds of those of every shape: two atoms have the
same operators unless one of them is a text. -/
theorem operators_induction {P : OperatorSet → Prop}
    (h : ∀ s ∈ [atomic .string, atomic .boolean, enumeration, collection, composite], P s.operators)
    (s : Shape) : P s.operators := by
  simp only [List.forall_mem_cons] at h
  obtain ⟨hstring, hboolean, henumeration, hcollection, hcomposite, -⟩ := h
  cases s with
  | atomic c =>
      by_cases hc : c = .string
      · rw [hc]; exact hstring
      · rw [operators, categoryOperators_of_ne_string hc]; exact hboolean
  | enumeration => exact henumeration
  | collection => exact hcollection
  | composite => exact hcomposite

/-- Only atoms that are no texts are ordered. -/
theorem atomic_of_ordering {s : Shape} {o : Operator} (ho : o ∈ ordering) (h : o ∈ s.operators) :
    ∃ c, s = .atomic c ∧ c ≠ .string := by
  cases s with
  | atomic c =>
      refine ⟨c, rfl, ?_⟩
      rintro rfl
      exact (by decide : ∀ o ∈ ordering, o ∉ (atomic .string).operators) o ho h
  | enumeration => exact absurd h ((by decide : ∀ o ∈ ordering, o ∉ enumeration.operators) o ho)
  | collection => exact absurd h ((by decide : ∀ o ∈ ordering, o ∉ collection.operators) o ho)
  | composite => exact absurd h ((by decide : ∀ o ∈ ordering, o ∉ composite.operators) o ho)

/-- Only texts are searched. -/
theorem string_of_stringContains {s : Shape} (h : .stringContains ∈ s.operators) :
    s = .atomic .string := by
  cases s with
  | atomic c =>
      by_cases hc : c = .string
      · rw [hc]
      · rw [operators, categoryOperators_of_ne_string hc, OperatorSet.mem_ofList] at h
        exact absurd h (by decide)
  | enumeration | collection | composite => revert h; decide

/-- Only collections are asked whether they are empty. -/
theorem collection_of_isEmpty {s : Shape} {o : Operator}
    (ho : o = .collectionIsEmpty ∨ o = .collectionIsNotEmpty) (h : o ∈ s.operators) :
    s = .collection := by
  cases s with
  | collection => rfl
  | atomic c =>
      by_cases hc : c = .string
      · subst hc; rcases ho with rfl | rfl <;> revert h <;> decide
      · rw [operators, categoryOperators_of_ne_string hc, OperatorSet.mem_ofList] at h
        rcases ho with rfl | rfl <;> exact absurd h (by decide)
  | enumeration | composite => rcases ho with rfl | rfl <;> revert h <;> decide

end Shape

/-! ### One filter -/

namespace FilterContext

open Outcome

variable {F : TypeFamily} {element t : TypeExpr} {path : FieldPath}

/-- An argument compared with a type is an atom of its category or one of its names. -/
theorem operand_eq_ok {raw : Raw} {v : Operand} (h : operand F t raw = .ok v) :
    (∃ a, v = .atom a ∧ (F.describe t).kind = .atomic a.category) ∨
      ∃ name names, v = .enum name ∧ (F.describe t).kind = .enumeration names ∧ name ∈ names := by
  simp only [operand] at h
  split at h
  · rename_i c hk
    split at h
    · rename_i a ha
      cases h
      exact .inl ⟨a, rfl, by rw [hk, Raw.coerce_category ha]⟩
    · cases h
    · cases h
  · rename_i names hk
    split at h
    · rename_i name hn
      cases h
      exact .inr ⟨name, names, rfl, hk, Raw.coerceName_mem hn⟩
    · cases h
    · cases h
  · cases h
  · cases h

/-- A comparison fits if it needs no order, or if the type has one. -/
theorem wellTyped_of_comparison {op : Comparison} {raw : Raw} {q : Predicate}
    (hp : path.Leads F element t)
    (ho : op.orders → ∃ c, (F.describe t).kind = .atomic c ∧ c ≠ .string)
    (h : comparison F path t op raw = .ok q) : q.WellTyped F element := by
  rw [comparison] at h
  cases hv : operand F t raw with
  | error e => rw [hv] at h; cases h
  | ok v =>
      rw [hv] at h
      cases h
      rcases operand_eq_ok hv with ⟨a, rfl, hk⟩ | ⟨name, names, rfl, hk, hn⟩
      · refine .atom hp hk fun hop => ?_
        obtain ⟨c, hc, hne⟩ := ho hop
        rw [hk] at hc
        cases hc
        exact hne
      · refine .enum hp hk hn fun hop => ?_
        obtain ⟨c, hc, -⟩ := ho hop
        rw [hk] at hc
        cases hc

/-- An operator that suits the type at a path makes a predicate that fits. -/
theorem wellTyped_of_apply {separator : String} {o : Operator} {arguments : List Raw}
    {q : Predicate} (hp : path.Leads F element t) (ho : o ∈ (F.describe t).shape.operators)
    (h : apply F separator path t o arguments = .ok q) : q.WellTyped F element := by
  refine apply_closed (fun _ _ => .or) (fun _ _ => .and) (.isNull hp) (.isNotNull hp)
    (fun op raw p hop hcomparison => ?_) (fun hcontains needle => ?_) (fun op hcount => ?_) h
  · refine wellTyped_of_comparison hp (fun horders => ?_) hcomparison
    rcases hop with rfl | rfl | hordering
    · cases horders
    · cases horders
    · obtain ⟨c, hc, hne⟩ := Shape.atomic_of_ordering hordering ho
      exact ⟨c, Descriptor.kind_of_shape_atomic hc, hne⟩
  · subst hcontains
    exact .contains hp (Descriptor.kind_of_shape_atomic (Shape.string_of_stringContains ho))
  · have hempty : o = .collectionIsEmpty ∨ o = .collectionIsNotEmpty :=
      hcount.imp And.left And.left
    obtain ⟨item, hitem⟩ := Descriptor.kind_of_shape_collection
      (Shape.collection_of_isEmpty hempty ho)
    exact .count hp hitem (hcount.imp And.right And.right)

/-- A leaf that is built is well typed. -/
theorem wellTyped_of_predicate {ctx : FilterContext} {f : PropertyFilter} {q : Predicate}
    (h : ctx.predicate f = .ok q) : q.WellTyped ctx.family ctx.element := by
  obtain ⟨path, t, hr, -, ho, h⟩ := build_eq_ok.mp (predicate_eq_ok.mp h)
  exact wellTyped_of_apply (FieldPath.leads_of_resolve hr) ho h

/-! ### Trees -/

/-- So is a predicate joined from well-typed ones. -/
theorem wellTyped_join {c : Connective} {q q' : Predicate} (h : q.WellTyped F element)
    (h' : q'.WellTyped F element) : (join c q q').WellTyped F element := by
  cases c with
  | and => exact .and h h'
  | or => exact .or h h'

/-- **Compiled predicates are well typed.**  Whatever tree is compiled, for whatever type and
separator, every part of the predicate fits the type. -/
theorem compile_wellTyped {ctx : FilterContext} {tree : FilterTree} {q : Predicate}
    (h : ctx.compile tree = .ok q) : q.WellTyped ctx.family ctx.element :=
  compile_closed (fun _ _ _ => wellTyped_join) (fun _ _ => wellTyped_of_predicate) h

/-- The mixed nest compiles, and each of its leaves is well typed. -/
theorem nestedPredicate_wellTyped :
    peopleContext.compile nestedTree = .ok nestedPredicate ∧
      nestedPredicate.WellTyped Sample.family Sample.person.type :=
  ⟨rfl, compile_wellTyped (show peopleContext.compile nestedTree = .ok nestedPredicate from rfl)⟩

end FilterContext

end RecordFilter
