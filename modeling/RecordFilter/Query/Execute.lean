import RecordFilter.Query.Order

/-!
# Answering requests

`Engine.execute` answers a request over a list of items: the filter is compiled, the page size is
checked, the items that satisfy the predicate are kept and counted, sorted by the resolved keys,
and cut to one page.  The first step to fail gives the error.
-/

namespace RecordFilter

/-- The items from a position on, at most so many. -/
def pageOf {α : Type} (skip take : UInt64) (items : List α) : List α :=
  (items.drop skip.toNat).take take.toNat

/-- The product of two numbers of 64 bits, or the greatest such number if it is less. -/
def saturatingMul (a b : UInt64) : UInt64 :=
  if a.toNat * b.toNat < UInt64.size then UInt64.ofNat (a.toNat * b.toNat)
  else UInt64.ofNat (UInt64.size - 1)

/-- A type, the family it belongs to, and the settings to answer under. -/
structure Engine where
  family : TypeFamily
  element : TypeExpr
  settings : Settings

namespace Engine

/-- What filters are compiled against. -/
def context (e : Engine) : FilterContext := ⟨e.family, e.element, e.settings.separator⟩

/-- The size of a page: the one asked for or the default, within the limits. -/
def pageSize (e : Engine) (p : PageRequest) : Except FilterError UInt64 :=
  let size := p.pageSize.getD e.settings.defaultPerPage
  if size = 0 ∨ e.settings.mostPerPage < size then
    .error ⟨"pageSize", .pageSize size e.settings.mostPerPage⟩
  else .ok size

variable {α : Type} (view : α → Record)

/-- The items that satisfy a predicate; without one, all do. -/
def matching (predicate : Option Predicate) (items : List α) : List α :=
  match predicate with
  | none => items
  | some p => items.filter fun x => p.holds (view x)

/-- The number of items that satisfy a predicate. -/
def count (p : Predicate) (items : List α) : Nat := items.countP fun x => p.holds (view x)

/-- One page of the items that satisfy a predicate. -/
def apply (e : Engine) (items : List α) (predicate : Option Predicate) (p : PageRequest) :
    Except FilterError (Page α) := do
  let size ← e.pageSize p
  let matched := matching view predicate items
  let keys ← SortKey.resolve e.family e.element p.orderBy
  return {
    items := pageOf (saturatingMul p.pageIndex size) size (sortItems view keys matched)
    totalCount := UInt64.ofNat matched.length
    pageIndex := p.pageIndex
    pageSize := size }

/-- The predicate of a request, if it has a filter. -/
def predicate (e : Engine) (filter : Option FilterTree) : Except FilterError (Option Predicate) :=
  match filter with
  | none => .ok none
  | some tree => (e.context.compile tree).map some

/-- The answer to a request. -/
def execute (e : Engine) (items : List α) (r : Request) : Except FilterError (Page α) := do
  e.apply view items (← e.predicate r.filter) r.page

end Engine

end RecordFilter
