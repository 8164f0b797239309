import RecordFilter.Record
import RecordFilter.TypeExpr

/-!
# Values of described types

A `Value` is a whole value, of which a filter sees the `Value.view`: of a list its length only, of
all else what it is.  `Value.HasType` says which values a type has; options and boxes leave no trace
in a value.
-/

namespace RecordFilter

/-- A value of a described type. -/
inductive Value where
  /-- The value of an option that holds nothing. -/
  | absent
  | atom (a : Atom)
  /-- A value of an enumeration, by name. -/
  | enum (name : String)
  | record (fields : List (String × Value))
  | list (items : List Value)

namespace Value

mutual

/-- What a filter sees of a value. -/
def view : Value → FieldValue
  | absent => .null
  | atom a => .atom a
  | enum name => .enum name
  | record fields => .record (viewFields fields)
  | list items => .collection items.length

/-- What a filter sees of the fields of a record. -/
def viewFields : List (String × Value) → Record
  | [] => []
  | (name, v) :: rest => (name, view v) :: viewFields rest

end

/-- The record that a value shows to a filter; a value that is no record has no fields. -/
def asRecord (v : Value) : Record :=
  match v.view with
  | .record fields => fields
  | _ => []

/-- The values of a type. -/
inductive HasType (F : TypeFamily) : Value → TypeExpr → Prop where
  | atomic {a : Atom} : HasType F (.atom a) (.atomic a.category)
  | definedAtomic {a : Atom} {key : String} :
    F key = .atomic a.category → HasType F (.atom a) (.defined key)
  | enumeration {key name value : String} {ignored : Bool} {values : List String} :
    F key = .enumeration name ignored values → value ∈ values →
    HasType F (.enum value) (.defined key)
  | composite {key name : String} {ignored : Bool} {descriptors : List FieldDescriptor}
      {fields : List (String × Value)} :
    F key = .composite name ignored descriptors →
    fields.map Prod.fst = descriptors.map FieldDescriptor.name →
    (∀ p ∈ fields.zip descriptors, HasType F p.1.2 p.2.type) →
    HasType F (.record fields) (.defined key)
  | absent {t : TypeExpr} : HasType F .absent (.optional t)
  | present {v : Value} {t : TypeExpr} : HasType F v t → HasType F v (.optional t)
  | boxed {v : Value} {t : TypeExpr} : HasType F v t → HasType F v (.boxed t)
  | list {items : List Value} {t : TypeExpr} :
    (∀ v ∈ items, HasType F v t) → HasType F (.list items) (.list t)

end Value

end RecordFilter
