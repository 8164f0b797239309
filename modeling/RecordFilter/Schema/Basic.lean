import RecordFilter.TypeExpr

/-!
# Schemas

A `Schema` describes a type to a client: the operators it knows, and the schemas of its fields or
of its elements.  `TypeFamily.schema?` compiles one from a type within a depth budget.  A field
costs one unit of depth and an element nothing; a composite without budget for its fields has
no properties.  What carries an ignore marker is left out, unless markers are overridden: a type
has then no schema, nor has a collection of it or a field of it.
-/

namespace RecordFilter

/-- A node of a schema. -/
inductive Schema where
  | node (name declaredType : String) (nullable : Bool) (shape : ShapeTag)
      (category : Option Category) (values : Option (List String))
      (properties : Option (List Schema)) (element : Option Schema)
      (operators : OperatorSet)

namespace Schema

/-- The name of the field, or of the type at the root. -/
def name : Schema → String
  | node name .. => name

/-- The declared name of the type. -/
def declaredType : Schema → String
  | node _ declaredType .. => declaredType

/-- Whether values may be absent. -/
def nullable : Schema → Bool
  | node _ _ nullable .. => nullable

/-- The shape of the values. -/
def shape : Schema → ShapeTag
  | node _ _ _ shape .. => shape

/-- The category of atomic values. -/
def category : Schema → Option Category
  | node _ _ _ _ category .. => category

/-- The names of an enumeration. -/
def values : Schema → Option (List String)
  | node _ _ _ _ _ values .. => values

/-- The schemas of the fields. -/
def properties : Schema → Option (List Schema)
  | node _ _ _ _ _ _ properties .. => properties

/-- The schema of the elements. -/
def element : Schema → Option Schema
  | node _ _ _ _ _ _ _ element _ => element

/-- The operators for the values. -/
def operators : Schema → OperatorSet
  | node _ _ _ _ _ _ _ _ operators => operators

/-- The first property with a name. -/
def property? (s : Schema) (name : String) : Option Schema :=
  s.properties.bind fun ps => ps.find? (·.name = name)

/-- The node at the end of a list of field names. -/
def follow? : Schema → List String → Option Schema
  | s, [] => some s
  | s, name :: names => (s.property? name).bind fun p => p.follow? names

/-- The node at a path, the names of which are separated by points. -/
def find? (s : Schema) (path : String) : Option Schema :=
  s.follow? ((path.toList.splitOn '.').map String.ofList)

mutual

/-- The number of levels of properties; the step to an element adds none. -/
def nestingDepth : Schema → Nat
  | node _ _ _ _ _ _ _ (some element) _ => nestingDepth element
  | node _ _ _ _ _ _ (some properties) none _ => 1 + greatestDepth properties
  | node _ _ _ _ _ _ none none _ => 0

/-- The greatest number of levels among schemas. -/
def greatestDepth : List Schema → Nat
  | [] => 0
  | s :: rest => max (nestingDepth s) (greatestDepth rest)

end

/-- The schema of the same type, with an option around it. -/
def asNullable (baseName : String) : Schema → Schema
  | node name _ _ shape category values properties element operators =>
    node name (TypeFamily.wrapped true baseName) true shape category values properties element
      operators

end Schema

namespace TypeFamily

variable (F : TypeFamily)

/-- A schema node of a type without its children. -/
def bareNode (name : String) (t : TypeExpr) (values : Option (List String))
    (properties : Option (List Schema)) (element : Option Schema) : Schema :=
  let d := F.describe t
  .node name (F.declaredName t) d.nullable d.shape.tag d.shape.category? values properties
    element d.shape.operators

/-- The schemas of fields, those left out that are marked or have no schema. -/
def fieldSchemas (overrideIgnores : Bool) (below : String → TypeExpr → Option Schema)
    (fields : List FieldDescriptor) : List Schema :=
  (fields.filter fun f => !f.ignored || overrideIgnores).filterMap fun f => below f.name f.type

/-- The schema of a type at a given depth; `below` makes the schemas of fields, if there is budget
for them. -/
def schemaNode (overrideIgnores : Bool) (below : Option (String → TypeExpr → Option Schema))
    (name : String) : TypeExpr → Option Schema
  | .atomic c => some (F.bareNode name (.atomic c) none none none)
  | .defined key =>
    match F key with
    | .atomic _ => some (F.bareNode name (.defined key) none none none)
    | .enumeration _ ignored values =>
      if ignored ∧ !overrideIgnores then none
      else some (F.bareNode name (.defined key) (some values) none none)
    | .composite _ ignored fields =>
      if ignored ∧ !overrideIgnores then none
      else some (F.bareNode name (.defined key) none
        (below.map fun below => fieldSchemas overrideIgnores below fields) none)
  | .optional t => (schemaNode overrideIgnores below name t).map (Schema.asNullable (F.baseName t))
  | .boxed t => schemaNode overrideIgnores below name t
  | .list t =>
    (schemaNode overrideIgnores below (F.describe t).name t).map fun element =>
      F.bareNode name (.list t) none none (some element)

/-- The schema of a type under a name, within a depth budget. -/
def schemaAt (overrideIgnores : Bool) : Nat → String → TypeExpr → Option Schema
  | 0, _, _ => none
  | 1, name, t => F.schemaNode overrideIgnores none name t
  | depth + 2, name, t =>
    F.schemaNode overrideIgnores (some fun name t => schemaAt overrideIgnores (depth + 1) name t)
      name t

/-- The schema of a type, named after the type. -/
def schema? (t : TypeExpr) (depth : Nat) (overrideIgnores : Bool) : Option Schema :=
  F.schemaAt overrideIgnores depth (F.describe t).name t

end TypeFamily

end RecordFilter
