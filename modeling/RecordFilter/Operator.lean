import RecordFilter.Category

/-!
# Filter operators

An `Operator` takes a fixed number of arguments.  Which operators a value knows depends on its
`Shape` alone (`Shape.operators`): ordered atoms can be compared, texts searched, enumerations
only told apart, collections only asked whether they are empty, and anything tested for null.
-/

namespace RecordFilter

/-- The operators of filters. -/
inductive Operator where
  | isNull
  | isNotNull
  | equalTo
  | notEqualTo
  | lessThan
  | lessOrEqual
  | greaterThan
  | greaterOrEqual
  | inRange
  | inSequence
  | stringContains
  | collectionIsEmpty
  | collectionIsNotEmpty
deriving Repr, DecidableEq

namespace Operator

/-- All operators, in their fixed order. -/
def all : List Operator :=
  [isNull, isNotNull, equalTo, notEqualTo, lessThan, lessOrEqual, greaterThan, greaterOrEqual,
    inRange, inSequence, stringContains, collectionIsEmpty, collectionIsNotEmpty]

theorem mem_all (o : Operator) : o ∈ all := by cases o <;> decide

/-- The name in requests and schemas. -/
def name : Operator → String
  | isNull => "isNull"
  | isNotNull => "isNotNull"
  | equalTo => "equalTo"
  | notEqualTo => "notEqualTo"
  | lessThan => "lessThan"
  | lessOrEqual => "lessOrEqual"
  | greaterThan => "greaterThan"
  | greaterOrEqual => "greaterOrEqual"
  | inRange => "inRange"
  | inSequence => "inSequence"
  | stringContains => "stringContains"
  | collectionIsEmpty => "collectionIsEmpty"
  | collectionIsNotEmpty => "collectionIsNotEmpty"

/-- The operator with a name. -/
def ofName? (s : String) : Option Operator := all.find? (·.name = s)

/-- An operator is found under its own name. -/
theorem ofName?_name (o : Operator) : ofName? o.name = some o := by cases o <;> decide

/-- The least and the greatest number of arguments. -/
def arity : Operator → Nat × Nat
  | isNull | isNotNull | collectionIsEmpty | collectionIsNotEmpty => (0, 0)
  | equalTo | notEqualTo | lessThan | lessOrEqual | greaterThan | greaterOrEqual
  | stringContains => (1, 1)
  | inRange => (2, 2)
  | inSequence => (1, 2)

/-- Whether the operator takes so many arguments. -/
def accepts (o : Operator) (count : Nat) : Bool := o.arity.1 ≤ count && count ≤ o.arity.2

end Operator

/-- A set of operators, listed in their fixed order. -/
structure OperatorSet where
  toList : List Operator
  ordered : toList.Sublist Operator.all
deriving DecidableEq

namespace OperatorSet

/-- The set of the operators of a list. -/
def ofList (ops : List Operator) : OperatorSet :=
  ⟨Operator.all.filter (· ∈ ops), List.filter_sublist⟩

instance : Membership Operator OperatorSet := ⟨fun s o => o ∈ s.toList⟩

theorem mem_def {o : Operator} {s : OperatorSet} : o ∈ s ↔ o ∈ s.toList := Iff.rfl

instance (o : Operator) (s : OperatorSet) : Decidable (o ∈ s) :=
  inferInstanceAs (Decidable (o ∈ s.toList))

@[simp]
theorem mem_ofList {o : Operator} {ops : List Operator} : o ∈ ofList ops ↔ o ∈ ops := by
  simp [mem_def, ofList, List.mem_filter, Operator.mem_all]

end OperatorSet

/-- What kind of thing a type describes. -/
inductive Shape where
  | atomic (c : Category)
  | enumeration
  | collection
  | composite
deriving Repr, DecidableEq

/-- A shape without its category. -/
inductive ShapeTag where
  | atomic | enumeration | collection | composite
deriving Repr, DecidableEq

namespace ShapeTag

/-- All tags, in their fixed order. -/
def all : List ShapeTag := [atomic, enumeration, collection, composite]

/-- The name in schemas. -/
def name : ShapeTag → String
  | atomic => "atomic"
  | enumeration => "enumeration"
  | collection => "collection"
  | composite => "composite"

/-- The tag with a name. -/
def ofName? (s : String) : Option ShapeTag := all.find? (·.name = s)

/-- A shape is found under its own name. -/
theorem ofName?_name (t : ShapeTag) : ofName? t.name = some t := by cases t <;> decide

end ShapeTag

namespace Shape

/-- The shape without its category. -/
def tag : Shape → ShapeTag
  | atomic _ => .atomic
  | enumeration => .enumeration
  | collection => .collection
  | composite => .composite

/-- The category of an atomic shape. -/
def category? : Shape → Option Category
  | atomic c => some c
  | _ => none

/-- The operators for values of one category: texts can be searched and not ordered, all else the
other way round. -/
def categoryOperators : Category → OperatorSet
  | .string => .ofList [.isNull, .isNotNull, .equalTo, .notEqualTo, .inSequence, .stringContains]
  | _ => .ofList
    [.isNull, .isNotNull, .equalTo, .notEqualTo, .lessThan, .lessOrEqual, .greaterThan,
      .greaterOrEqual, .inRange, .inSequence]

/-- The operators for values of a shape. -/
def operators : Shape → OperatorSet
  | atomic c => categoryOperators c
  | enumeration => .ofList [.isNull, .isNotNull, .equalTo, .notEqualTo, .inSequence]
  | collection => .ofList [.isNull, .isNotNull, .collectionIsEmpty, .collectionIsNotEmpty]
  | composite => .ofList [.isNull, .isNotNull]

end Shape

end RecordFilter
