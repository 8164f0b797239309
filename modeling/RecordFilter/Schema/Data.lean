import RecordFilter.Json.Decode
import RecordFilter.Schema.Basic

/-!
# Schemas as data

Fields that a node does not have are left out when a schema is written and may be left out or null
when one is read; operators are written in their fixed order and read in any.
-/

namespace RecordFilter.Schema

mutual

/-- A schema as a data value. -/
def toJson : Schema → Json
  | node name declaredType nullable shape category values properties element operators =>
    .ofFields <|
      [("name", .string name), ("declaredTypeName", .string declaredType),
        ("nullable", .bool nullable), ("shape", .string shape.name),
        ("allowedOperators", .array (operators.toList.map fun o => .string o.name))] ++
      (match category with
        | some c => [("category", .string c.name)]
        | none => []) ++
      (match values with
        | some vs => [("enumValues", .array (vs.map .string))]
        | none => []) ++
      (match properties with
        | some ps => [("properties", .array (listToJson ps))]
        | none => []) ++
      (match element with
        | some e => [("collectionElement", toJson e)]
        | none => [])

/-- Schemas as data values. -/
def listToJson : List Schema → List Json
  | [] => []
  | s :: rest => toJson s :: listToJson rest

end

/-- The names of the fields of a node, in order. -/
def fieldNames : List String :=
  ["name", "declaredTypeName", "nullable", "shape", "category", "enumValues", "properties",
    "collectionElement", "allowedOperators"]

open Json.Document in
/-- Reads a node, given how its children are read. -/
def decodeNode (self : Json.Document → Option Schema) (d : Json.Document) : Option Schema := do
  match ← d.slots? fieldNames with
  | [name, declaredType, nullable, shape, category, values, properties, element, operators] =>
    return .node (← name.required string?) (← declaredType.required string?)
      (← nullable.required bool?) (← shape.required (named? ShapeTag.ofName?))
      (← category.withDefault (option? (named? Category.ofName?)) none)
      (← values.withDefault (option? (list? string?)) none)
      (← properties.withDefault (option? (list? self)) none)
      (← element.withDefault (option? self) none)
      (.ofList (← operators.required (list? (named? Operator.ofName?))))
  | _ => none

/-- Reads a schema. -/
def ofDocument? : Json.Document → Option Schema := Json.Document.recursive decodeNode

end RecordFilter.Schema
