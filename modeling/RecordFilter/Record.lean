import RecordFilter.Atom

/-!
# Records at run time

A filter sees a record through its fields.  A `FieldValue` is what one field shows: a collection
shows only its length.  A field that a record does not have is told apart from one that is null
by `Record.field?`, though filters treat both alike.
-/

namespace RecordFilter

/-- What a field of a record shows. -/
inductive FieldValue where
  | null
  | atom (a : Atom)
  /-- A value of an enumeration, by name. -/
  | enum (name : String)
  | record (fields : List (String × FieldValue))
  /-- A collection, by the number of its elements. -/
  | collection (length : Nat)

/-- A record, by its fields. -/
abbrev Record : Type := List (String × FieldValue)

/-- What a field of a record shows, if the record has the field. -/
def Record.field? (r : Record) (name : String) : Option FieldValue := r.lookup name

/-- Whether a field shows nothing. -/
def FieldValue.isNull : FieldValue → Bool
  | null => true
  | _ => false

end RecordFilter
