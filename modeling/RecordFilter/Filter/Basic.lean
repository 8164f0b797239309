import RecordFilter.Json.Decode
import RecordFilter.Operator
import RecordFilter.Raw

/-!
# Filters of requests

A `PropertyFilter` applies an operator to one field.  A `FilterTree` joins a filter with further
trees by one connective; without a connective the further trees say nothing.
-/

namespace RecordFilter

/-- What joins the parts of a filter tree. -/
inductive Connective where
  | and | or
deriving Repr, DecidableEq

namespace Connective

/-- The name in requests. -/
def name : Connective → String
  | and => "and"
  | or => "or"

/-- The connective with a name. -/
def ofName? (s : String) : Option Connective :=
  if s = "and" then some and else if s = "or" then some or else none

end Connective

/-- An operator applied to a field. -/
structure PropertyFilter where
  path : String
  operator : Operator
  arguments : List Raw

/-- A filter joined with further trees. -/
inductive FilterTree where
  | node (first : PropertyFilter) (connective : Option Connective) (others : List FilterTree)

namespace PropertyFilter

open Json.Document in
/-- Reads a filter. -/
def ofDocument? (d : Json.Document) : Option PropertyFilter := do
  match ← d.slots? ["path", "operator", "arguments"] with
  | [path, operator, arguments] =>
    return ⟨← path.required string?, ← operator.required (named? Operator.ofName?),
      ← arguments.withDefault (list? fun d => d.value?.map Raw.ofJson) []⟩
  | _ => none

/-- A filter as a data value. -/
def toJson (f : PropertyFilter) : Json :=
  .ofFields [("path", .string f.path), ("operator", .string f.operator.name),
    ("arguments", .array (f.arguments.map Raw.toJson))]

end PropertyFilter

namespace FilterTree

/-- The tree of one filter. -/
def single (first : PropertyFilter) : FilterTree := .node first none []

mutual

/-- The number of filters of a tree. -/
def filterCount : FilterTree → Nat
  | node _ _ others => 1 + filterCounts others

/-- The number of filters of trees. -/
def filterCounts : List FilterTree → Nat
  | [] => 0
  | t :: rest => filterCount t + filterCounts rest

end

open Json.Document in
/-- Reads a node, given how further trees are read. -/
def decodeNode (self : Json.Document → Option FilterTree) (d : Json.Document) :
    Option FilterTree := do
  match ← d.slots? ["first", "logicalOperator", "others"] with
  | [first, connective, others] =>
    return .node (← first.required PropertyFilter.ofDocument?)
      (← connective.withDefault (option? (named? Connective.ofName?)) none)
      (← others.withDefault (list? self) [])
  | _ => none

/-- Reads a filter tree. -/
def ofDocument? : Json.Document → Option FilterTree := Json.Document.recursive decodeNode

mutual

/-- A filter tree as a data value; what is not there is left out. -/
def toJson : FilterTree → Json
  | node first connective others =>
    .ofFields <|
      [("first", first.toJson)] ++
      (match connective with
        | some c => [("logicalOperator", .string c.name)]
        | none => []) ++
      (match others with
        | [] => []
        | t :: rest => [("others", .array (toJson t :: listToJson rest))])

/-- Filter trees as data values. -/
def listToJson : List FilterTree → List Json
  | [] => []
  | t :: rest => toJson t :: listToJson rest

end

end FilterTree

end RecordFilter
