import RecordFilter.Filter.Compile
import RecordFilter.Query.Request

/-!
# Ordering of items

Items are ordered by the values at the paths of sort keys, the most significant key first.  Null
stands before atoms, these before enumerations, collections and records; atoms of one category
are ordered by value, enumerations by name, collections by length.  Values that cannot be compared
count as equal, so the relation need not be transitive; `sortItems` is defined for any
relation: each item in turn moves in front of those at the end that it precedes.
-/

namespace RecordFilter

/-- A sort key whose path is resolved. -/
structure SortKey where
  path : FieldPath
  direction : Direction
deriving Repr, DecidableEq

namespace FieldValue

/-- The place of a kind of values in the order. -/
def rank : FieldValue → Nat
  | null => 0
  | atom _ => 1
  | enum _ => 2
  | collection _ => 3
  | record _ => 4

/-- The order of two field values. -/
def order : FieldValue → FieldValue → Ordering
  | atom a, atom b => (a.compare? b).getD .eq
  | enum a, enum b => Ord.compare a b
  | collection a, collection b => Ord.compare a b
  | a, b => Ord.compare a.rank b.rank

end FieldValue

namespace SortKey

/-- The order of two records under a key. -/
def order (k : SortKey) (a b : Record) : Ordering :=
  let o := (k.path.value a).order (k.path.value b)
  match k.direction with
  | .ascending => o
  | .descending => o.swap

/-- The order of two records under keys: that of the first key that tells them apart. -/
def lexicographic (keys : List SortKey) (a b : Record) : Ordering :=
  match keys with
  | [] => .eq
  | k :: rest => (k.order a b).then (lexicographic rest a b)

/-- Resolves the paths of sort keys in a type. -/
def resolve (F : TypeFamily) (element : TypeExpr) (specs : List SortSpec) :
    Except FilterError (List SortKey) :=
  specs.mapM fun s =>
    match FieldPath.resolve F element s.path with
    | .ok (path, _) => .ok ⟨path, s.direction⟩
    | .error fault => .error ⟨s.path, .path fault⟩

end SortKey

/-- Puts an item into a list that is given last item first: it moves in front of the items at the
end that it precedes. -/
def insertBack {α : Type} (precedes : α → α → Bool) (x : α) : List α → List α
  | [] => [x]
  | y :: ys => if precedes x y then y :: insertBack precedes x ys else x :: y :: ys

/-- Sorts items by keys; items that the keys do not tell apart keep their order. -/
def sortItems {α : Type} (view : α → Record) (keys : List SortKey) (items : List α) : List α :=
  let precedes (a b : α) : Bool := SortKey.lexicographic keys (view a) (view b) = .lt
  (items.foldl (fun back x => insertBack precedes x back) []).reverse

end RecordFilter
