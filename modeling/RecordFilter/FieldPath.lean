import RecordFilter.Record
import RecordFilter.TypeExpr

/-!
# Field paths

A `FieldPath` names a field, or a field of a field.  `FieldPath.resolve` finds the path that a text
names in a type, with the type at its end; `FieldPath.value` reads a record at a path, and what is
not there reads as null.
-/

namespace RecordFilter

/-- A field, or a field of a composite field. -/
structure FieldPath where
  head : String
  tail : Option String
deriving Repr, DecidableEq

/-- Why a text names no path of a type. -/
inductive PathFault where
  | emptySegment
  | tooDeep
  /-- The type `typeName` has no field `segment`. -/
  | unknownField (segment typeName : String)
deriving Repr, DecidableEq

namespace FieldPath

/-- The text of a path. -/
def text (p : FieldPath) : String :=
  match p.tail with
  | some tail => p.head ++ "." ++ tail
  | none => p.head

/-- The value of a record at a path. -/
def value (p : FieldPath) (r : Record) : FieldValue :=
  match r.field? p.head, p.tail with
  | none, _ => .null
  | some v, none => v
  | some (.record inner), some tail => (Record.field? inner tail).getD .null
  | some _, some _ => .null

/-- The segments of a text of a path. -/
def segments (text : String) : List String := (text.toList.splitOn '.').map String.ofList

/-- The path of one segment in a type. -/
def resolveDirect (F : TypeFamily) (element : TypeExpr) (name : String) :
    Except PathFault (FieldPath × TypeExpr) :=
  let d := F.describe element
  match d.field? name with
  | none => .error (.unknownField name d.name)
  | some f => .ok (⟨f.name, none⟩, f.type)

/-- The path of two segments in a type, the first of which must be a composite. -/
def resolveNested (F : TypeFamily) (element : TypeExpr) (outer inner : String) :
    Except PathFault (FieldPath × TypeExpr) :=
  let d := F.describe element
  match d.field? outer with
  | none => .error (.unknownField outer d.name)
  | some f =>
    let e := F.describe f.type
    if e.shape = .composite then
      match e.field? inner with
      | none => .error (.unknownField inner e.name)
      | some g => .ok (⟨f.name, some g.name⟩, g.type)
    else .error (.unknownField inner (F.declaredName f.type))

/-- The path that a text names in a type, and the type at its end. -/
def resolve (F : TypeFamily) (element : TypeExpr) (text : String) :
    Except PathFault (FieldPath × TypeExpr) :=
  let names := segments text
  if "" ∈ names then .error .emptySegment
  else match names with
    | [name] => resolveDirect F element name
    | [outer, inner] => resolveNested F element outer inner
    | _ => .error .tooDeep

end FieldPath

end RecordFilter
