import RecordFilter.Filter.Basic
import RecordFilter.Settings

/-!
# Requests and pages

A `Request` asks for one page of the items that satisfy a filter, in a given order.  A `Page` is the
answer, with the number of all items that satisfy the filter.
-/

namespace RecordFilter

/-- The direction of a sort key. -/
inductive Direction where
  | ascending | descending
deriving Repr, DecidableEq

namespace Direction

/-- The name in requests. -/
def name : Direction → String
  | ascending => "asc"
  | descending => "desc"

/-- The direction with a name. -/
def ofName? (s : String) : Option Direction :=
  if s = "asc" then some ascending else if s = "desc" then some descending else none

end Direction

/-- A sort key as it stands in a request. -/
structure SortSpec where
  path : String
  direction : Direction
deriving Repr, DecidableEq

/-- Which page is asked for, and in which order the items stand. -/
structure PageRequest where
  pageIndex : UInt64
  pageSize : Option UInt64
  /-- The most significant key first. -/
  orderBy : List SortSpec
deriving Repr, DecidableEq

/-- A filter, if any, and a page. -/
structure Request where
  filter : Option FilterTree
  page : PageRequest

/-- A page of items and the number of items on all pages. -/
structure Page (α : Type) where
  items : List α
  totalCount : UInt64
  pageIndex : UInt64
  pageSize : UInt64

/-- The sum of two numbers of 64 bits, unless it goes beyond 64 bits: then there is none. -/
def checkedAdd (a b : UInt64) : Option UInt64 :=
  if a.toNat + b.toNat < UInt64.size then some (a + b) else none

/-- The number of pages.  The total and the page size are added first; where their sum goes beyond
64 bits the computation fails. -/
def Page.pageCount {α : Type} (p : Page α) : Option UInt64 :=
  if p.pageSize = 0 then some 0
  else do
    let sum ← checkedAdd p.totalCount p.pageSize
    return (sum - 1) / p.pageSize

namespace SortSpec

open Json.Document in
/-- Reads a sort key; without a direction it is ascending. -/
def ofDocument? (d : Json.Document) : Option SortSpec := do
  match ← d.slots? ["path", "direction"] with
  | [path, direction] =>
    return ⟨← path.required string?,
      ← direction.withDefault (named? Direction.ofName?) .ascending⟩
  | _ => none

/-- A sort key as a data value. -/
def toJson (s : SortSpec) : Json :=
  .ofFields [("path", .string s.path), ("direction", .string s.direction.name)]

end SortSpec

namespace PageRequest

/-- The first page, of the default size, in the order of the source. -/
def default : PageRequest := ⟨0, none, []⟩

open Json.Document in
/-- Reads a page request. -/
def ofDocument? (d : Json.Document) : Option PageRequest := do
  match ← d.slots? ["pageIndex", "pageSize", "orderBy"] with
  | [pageIndex, pageSize, orderBy] =>
    return ⟨← pageIndex.withDefault word? 0, ← pageSize.withDefault (option? word?) none,
      ← orderBy.withDefault (list? SortSpec.ofDocument?) []⟩
  | _ => none

/-- A page request as a data value; what is not there is left out. -/
def toJson (p : PageRequest) : Json :=
  .ofFields <|
    [("pageIndex", .ofWord p.pageIndex)] ++
    (match p.pageSize with
      | some size => [("pageSize", .ofWord size)]
      | none => []) ++
    (match p.orderBy with
      | [] => []
      | specs => [("orderBy", .array (specs.map SortSpec.toJson))])

end PageRequest

namespace Request

open Json.Document in
/-- Reads a request. -/
def ofDocument? (d : Json.Document) : Option Request := do
  match ← d.slots? ["filter", "page"] with
  | [filter, page] =>
    return ⟨← filter.withDefault (option? FilterTree.ofDocument?) none,
      ← page.withDefault PageRequest.ofDocument? .default⟩
  | _ => none

/-- A request as a data value. -/
def toJson (r : Request) : Json :=
  .ofFields <|
    (match r.filter with
      | some tree => [("filter", tree.toJson)]
      | none => []) ++
    [("page", r.page.toJson)]

end Request

namespace Page

open Json.Document in
/-- Reads a page, given how items are read. -/
def ofDocument? {α : Type} (item : Json.Document → Option α) (d : Json.Document) :
    Option (Page α) := do
  match ← d.slots? ["items", "totalCount", "pageIndex", "pageSize"] with
  | [items, totalCount, pageIndex, pageSize] =>
    return ⟨← items.required (list? item), ← totalCount.required word?,
      ← pageIndex.required word?, ← pageSize.required word?⟩
  | _ => none

/-- A page as a data value, given how items are written. -/
def toJson {α : Type} (item : α → Json) (p : Page α) : Json :=
  .ofFields [("items", .array (p.items.map item)), ("totalCount", .ofWord p.totalCount),
    ("pageIndex", .ofWord p.pageIndex), ("pageSize", .ofWord p.pageSize)]

end Page

end RecordFilter
