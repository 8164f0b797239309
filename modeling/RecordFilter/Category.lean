import RecordFilter.Number.Integer

/-!
# Categories of atomic values

Every atomic value belongs to one `Category`.  A category has a `name` in requests and schemas, and
a `typeName` under which messages speak of it.
-/

namespace RecordFilter

/-- The kinds of atomic values. -/
inductive Category where
  | char
  | boolean
  | integer (kind : IntKind)
  | float32
  | float64
  | decimal
  | string
  | uuid
  | date
  | dateTime
  | dateTimeOffset
  | time
  | timeSpan
deriving Repr, DecidableEq

namespace Category

/-- All categories, in their fixed order. -/
def all : List Category :=
  [char, boolean, integer .int8, integer .int16, integer .int32, integer .int64,
    integer .uint8, integer .uint16, integer .uint32, integer .uint64, float32, float64, decimal,
    string, uuid, date, dateTime, dateTimeOffset, time, timeSpan]

theorem mem_all (c : Category) : c ∈ all := by
  cases c with
  | integer k => cases k <;> decide
  | _ => decide

/-- The name in requests and schemas. -/
def name : Category → String
  | char => "char"
  | boolean => "boolean"
  | integer .int8 => "int8"
  | integer .int16 => "int16"
  | integer .int32 => "int32"
  | integer .int64 => "int64"
  | integer .uint8 => "uint8"
  | integer .uint16 => "uint16"
  | integer .uint32 => "uint32"
  | integer .uint64 => "uint64"
  | float32 => "float32"
  | float64 => "float64"
  | decimal => "decimal"
  | string => "string"
  | uuid => "uuid"
  | date => "date"
  | dateTime => "dateTime"
  | dateTimeOffset => "dateTimeOffset"
  | time => "time"
  | timeSpan => "timeSpan"

/-- The category with a name. -/
def ofName? (s : String) : Option Category := all.find? (·.name = s)

/-- The name of the values' type in messages and schemas. -/
def typeName : Category → String
  | char => "char"
  | boolean => "bool"
  | integer .int8 => "i8"
  | integer .int16 => "i16"
  | integer .int32 => "i32"
  | integer .int64 => "i64"
  | integer .uint8 => "u8"
  | integer .uint16 => "u16"
  | integer .uint32 => "u32"
  | integer .uint64 => "u64"
  | float32 => "f32"
  | float64 => "f64"
  | decimal => "Decimal"
  | string => "String"
  | uuid => "Uuid"
  | date => "NaiveDate"
  | dateTime => "NaiveDateTime"
  | dateTimeOffset => "DateTime<FixedOffset>"
  | time => "NaiveTime"
  | timeSpan => "TimeDelta"

/-- The fixed-width integers. -/
def isInteger : Category → Bool
  | integer _ => true
  | _ => false

/-- Integers, binary and decimal numbers. -/
def isNumeric : Category → Bool
  | integer _ | float32 | float64 | decimal => true
  | _ => false

/-- Dates, times and spans. -/
def isTemporal : Category → Bool
  | date | dateTime | dateTimeOffset | time | timeSpan => true
  | _ => false

/-- A category is found under its own name. -/
theorem ofName?_name (c : Category) : ofName? c.name = some c := by
  cases c with
  | integer k => cases k <;> decide
  | _ => decide

end Category

end RecordFilter
