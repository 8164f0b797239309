import RecordFilter.Calendar.Reading
import RecordFilter.Json.Decode
import RecordFilter.Raw
import RecordFilter.Value.Basic

/-!
# Values as data

Stored data holds a record under the names of its fields.  A field may be left out if it is an
option, a list, or carries an ignore marker; what carries a marker is read but never written.
Dates and times are read in the forms of `Date.readField` and its like, and a moment in universal
time is written with `Z`.
-/

namespace RecordFilter

namespace Category

open Json.Document in
/-- Reads a stored value of a category. -/
def ofDocument? (c : Category) (d : Json.Document) : Option Atom :=
  match c with
  | char => do
    match (← d.string?).toList with
    | [c] => some (.char c)
    | _ => none
  | boolean => d.bool?.map .boolean
  | integer k => do ((k.fit (← d.int?)).toOption).map (.integer k)
  | float32 => d.double?.map fun x => .float32 (x.convert .single)
  | float64 => d.double?.map .float64
  | decimal => (decimal? d).map .decimal
  | string => d.string?.map .string
  | uuid => do ((Uuid.read (← d.string?).toList).toOption).map .uuid
  | date => do (Date.readField (← d.string?).toList).map .date
  | dateTime => do (DateTime.readField (← d.string?).toList).map .dateTime
  | dateTimeOffset => do (OffsetDateTime.readField (← d.string?).toList).map .dateTimeOffset
  | time => do (TimeOfDay.readField (← d.string?).toList).map .time
  | timeSpan => do (TimeSpan.read (← d.string?).toList).map .timeSpan
where
  /-- A decimal stands as a number or as text; a binary number counts by its shortest digits. -/
  decimal? : Json.Document → Option Decimal
    | .number (.integer i) => Decimal.ofInt? i.1
    | .number (.float x) => (Decimal.read x.1.plain).toOption
    | .string s => (Decimal.read s.toList).toOption
    | _ => none

end Category

/-- An atomic value as it is stored. -/
def Atom.toStored : Atom → Json
  | dateTimeOffset t => .string (String.ofList t.zuluText)
  | a => a.toJson

namespace TypeFamily

/-- What an optional, boxed or list type holds when nothing is stored; the empty text otherwise. -/
def blank? : TypeExpr → Option Value
  | .optional _ => some .absent
  | .boxed t => blank? t
  | .list _ => some (.list [])
  | .atomic .string => some (.atom (.string ""))
  | _ => none

/-- The value of a field that stored data leaves out, if that is allowed. -/
def omitted? (f : FieldDescriptor) : Option Value :=
  match f.type with
  | .optional _ | .list _ => blank? f.type
  | _ => if f.ignored then blank? f.type else none

variable (F : TypeFamily)

open Json.Document in
/-- Reads a value of a type, given how values of defined types are read. -/
def decodeType (defined : String → Json.Document → Option Value) :
    TypeExpr → Json.Document → Option Value
  | .atomic c, d => (c.ofDocument? d).map .atom
  | .defined key, d => defined key d
  | .optional t, d => (option? (decodeType defined t) d).map fun v => v.getD .absent
  | .boxed t, d => decodeType defined t d
  | .list t, d => (list? (decodeType defined t) d).map .list

open Json.Document in
/-- Reads one field of a record. -/
def decodeField (defined : String → Json.Document → Option Value) (f : FieldDescriptor)
    (slot : Slot) : Option (String × Value) :=
  let decode := decodeType defined f.type
  (match omitted? f with
    | some v => slot.withDefault decode v
    | none => slot.required decode).map (f.name, ·)

open Json.Document in
/-- Reads a value of a defined type that is nested at most `levels` deep. -/
def decodeDefined : Nat → String → Json.Document → Option Value
  | 0, _, _ => none
  | levels + 1, key, d =>
    match F key with
    | .atomic c => (c.ofDocument? d).map .atom
    | .enumeration _ _ values =>
      (named? (fun s => if s ∈ values then some s else none) d).map .enum
    | .composite _ _ fields => do
      let slots ← d.slots? (fields.map (·.name))
      let read ← (fields.zip slots).mapM fun (f, slot) =>
        decodeField (decodeDefined levels) f slot
      return .record read

/-- Reads a value of a type. -/
def decode (t : TypeExpr) (d : Json.Document) : Option Value :=
  decodeType (F.decodeDefined d.height) t d

/-- The fields of a type, those of its content if it is an option or a box. -/
def fieldsOf (t : TypeExpr) : List FieldDescriptor := (F.describe t).kind.fields?.getD []

/-- The element type of a list, or what it is an option of. -/
def elementOf (t : TypeExpr) : TypeExpr := ((F.describe t).kind.element?).getD t

mutual

/-- A value of a type as data. -/
def encode (t : TypeExpr) : Value → Json
  | .absent => .null
  | .atom a => a.toStored
  | .enum name => .string name
  | .record fields => .ofFields (encodeFields (F.fieldsOf t) fields)
  | .list items => .array (encodeItems (F.elementOf t) items)

/-- The fields of a record as data, without those that carry an ignore marker. -/
def encodeFields (descriptors : List FieldDescriptor) :
    List (String × Value) → List (String × Json)
  | [] => []
  | (name, v) :: rest =>
    match descriptors.find? (·.name = name) with
    | some f =>
      if f.ignored then encodeFields descriptors rest
      else (name, encode f.type v) :: encodeFields descriptors rest
    | none => encodeFields descriptors rest

/-- The items of a list as data. -/
def encodeItems (t : TypeExpr) : List Value → List Json
  | [] => []
  | v :: vs => encode t v :: encodeItems t vs

end

end TypeFamily

end RecordFilter
