import RecordFilter.Operator

/-!
# Described types

A `TypeExpr` is built from atomic and defined types by options, boxes and lists; it is also the
type's identity.  A `TypeFamily` says what each defined type is, under a key of its own, so that two
types may share a name.  Definitions may refer to each other and to themselves: a family can be
recursive while every expression is finite.

`TypeFamily.describe` gives the `Descriptor` of a type: its short name, whether it may be absent or
is hidden by an ignore marker, and its kind.  An option describes its content as nullable under
an identity of its own; a box describes its content and nothing else.
-/

namespace RecordFilter

/-- A type, and its identity. -/
inductive TypeExpr where
  | atomic (c : Category)
  /-- The type that is defined under a key. -/
  | defined (key : String)
  /-- A value that may be absent. -/
  | optional (t : TypeExpr)
  /-- A value held elsewhere. -/
  | boxed (t : TypeExpr)
  | list (t : TypeExpr)
deriving Repr, DecidableEq

/-- A field of a composite type. -/
structure FieldDescriptor where
  name : String
  ignored : Bool
  type : TypeExpr
deriving Repr, DecidableEq

/-- What a defined type is. -/
inductive Definition where
  /-- An atomic type under an identity of its own. -/
  | atomic (c : Category)
  | enumeration (name : String) (ignored : Bool) (values : List String)
  | composite (name : String) (ignored : Bool) (fields : List FieldDescriptor)

/-- What is defined under each key. -/
abbrev TypeFamily : Type := String → Definition

/-- The kind of a type. -/
inductive Kind where
  | atomic (c : Category)
  | enumeration (values : List String)
  | collection (element : TypeExpr)
  | composite (fields : List FieldDescriptor)
deriving DecidableEq

/-- What filters need to know of a type. -/
structure Descriptor where
  /-- The short name. -/
  name : String
  id : TypeExpr
  nullable : Bool
  ignored : Bool
  kind : Kind
deriving DecidableEq

namespace Kind

/-- The shape of a kind. -/
def shape : Kind → Shape
  | atomic c => .atomic c
  | enumeration _ => .enumeration
  | collection _ => .collection
  | composite _ => .composite

/-- The values of an enumeration. -/
def values? : Kind → Option (List String)
  | enumeration values => some values
  | _ => none

/-- The element type of a collection. -/
def element? : Kind → Option TypeExpr
  | collection element => some element
  | _ => none

/-- The fields of a composite. -/
def fields? : Kind → Option (List FieldDescriptor)
  | composite fields => some fields
  | _ => none

end Kind

namespace Descriptor

/-- The shape of the type. -/
def shape (d : Descriptor) : Shape := d.kind.shape

/-- The first field of a composite with a name. -/
def field? (d : Descriptor) (name : String) : Option FieldDescriptor :=
  d.kind.fields?.bind fun fields => fields.find? (·.name = name)

end Descriptor

namespace TypeFamily

variable (F : TypeFamily)

/-- The descriptor of a type. -/
def describe : TypeExpr → Descriptor
  | .atomic c => ⟨c.typeName, .atomic c, false, false, .atomic c⟩
  | .defined key =>
    match F key with
    | .atomic c => ⟨c.typeName, .defined key, false, false, .atomic c⟩
    | .enumeration name ignored values =>
      ⟨name, .defined key, false, ignored, .enumeration values⟩
    | .composite name ignored fields => ⟨name, .defined key, false, ignored, .composite fields⟩
  | .optional t => { describe t with id := .optional t, nullable := true }
  | .boxed t => describe t
  | .list t => ⟨"Vec", .list t, false, false, .collection t⟩

/-- A type name as it is declared, with `Option` around what may be absent. -/
def wrapped (nullable : Bool) (name : String) : String :=
  if nullable then "Option<" ++ name ++ ">" else name

/-- The declared name of a type without an `Option` around the whole. -/
def baseName : TypeExpr → String
  | .atomic c => c.typeName
  | .defined key => (F.describe (.defined key)).name
  | .optional t | .boxed t => baseName t
  | .list t => "Vec<" ++ wrapped (F.describe t).nullable (baseName t) ++ ">"

/-- The declared name of a type. -/
def declaredName (t : TypeExpr) : String := wrapped (F.describe t).nullable (F.baseName t)

@[simp]
theorem describe_boxed (t : TypeExpr) : F.describe (.boxed t) = F.describe t := rfl

/-- An option keeps the description of its content but for the identity and nullability. -/
@[simp]
theorem describe_optional (t : TypeExpr) :
    F.describe (.optional t) = { F.describe t with id := .optional t, nullable := true } := rfl

end TypeFamily

end RecordFilter
