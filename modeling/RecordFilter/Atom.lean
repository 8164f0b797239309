import RecordFilter.Calendar.Text
import RecordFilter.Calendar.TimeSpan
import RecordFilter.Category
import RecordFilter.Number.Decimal
import RecordFilter.Number.Shortest
import RecordFilter.Text.Quoted
import RecordFilter.Uuid

/-!
# Atomic values

An `Atom` is a value of one category.  Only atoms of one category are comparable
(`Atom.compare?`), and two atoms are equal when they compare so: a decimal by value, a moment by
its universal time, and undefined numbers never.  `Atom.text` is the canonical text of a value
and `Atom.shown` its form inside an expression, where text is quoted.
-/

namespace RecordFilter

/-- A value of one category. -/
inductive Atom where
  | char (c : Char)
  | boolean (b : Bool)
  | integer (kind : IntKind) (i : kind.Value)
  | float32 (x : Single)
  | float64 (x : Double)
  | decimal (d : Decimal)
  | string (s : String)
  | uuid (u : Uuid)
  | date (d : Date)
  | dateTime (t : DateTime)
  | dateTimeOffset (t : OffsetDateTime)
  | time (t : TimeOfDay)
  | timeSpan (s : TimeSpan)

namespace Atom

/-- The category of a value. -/
def category : Atom → Category
  | char _ => .char
  | boolean _ => .boolean
  | integer k _ => .integer k
  | float32 _ => .float32
  | float64 _ => .float64
  | decimal _ => .decimal
  | string _ => .string
  | uuid _ => .uuid
  | date _ => .date
  | dateTime _ => .dateTime
  | dateTimeOffset _ => .dateTimeOffset
  | time _ => .time
  | timeSpan _ => .timeSpan

/-- The order of two values; values of different categories are not comparable. -/
def compare? : Atom → Atom → Option Ordering
  | char a, char b => some (Ord.compare a b)
  | boolean a, boolean b => some (Ord.compare a b)
  | integer k a, integer l b => if k = l then some (Ord.compare a.1 b.1) else none
  | float32 a, float32 b => a.compare? b
  | float64 a, float64 b => a.compare? b
  | decimal a, decimal b => some (a.compare b)
  | string a, string b => some (Ord.compare a b)
  | uuid a, uuid b => some (a.compare b)
  | date a, date b => some (a.compare b)
  | dateTime a, dateTime b => some (a.compare b)
  | dateTimeOffset a, dateTimeOffset b => some (a.compare b)
  | time a, time b => some (a.compare b)
  | timeSpan a, timeSpan b => some (a.compare b)
  | _, _ => none

/-- Whether two values are the same. -/
def same (a b : Atom) : Bool := a.compare? b = some .eq

/-- The canonical text as characters. -/
def chars : Atom → List Char
  | char c => [c]
  | boolean b => if b then ['t', 'r', 'u', 'e'] else ['f', 'a', 'l', 's', 'e']
  | integer _ i => Text.signedDigits i.1
  | float32 x => x.plain
  | float64 x => x.plain
  | decimal d => d.text
  | string s => s.toList
  | uuid u => u.text
  | date d => d.text
  | dateTime t => t.text
  | dateTimeOffset t => t.text
  | time t => t.text
  | timeSpan s => s.text

/-- The canonical text. -/
def text (a : Atom) : String := String.ofList a.chars

/-- The form inside an expression. -/
def shown : Atom → String
  | string s => Text.quoted s
  | a@(char _) | a@(uuid _) | a@(date _) | a@(dateTime _) | a@(dateTimeOffset _) | a@(time _)
  | a@(timeSpan _) => String.ofList ('\'' :: a.chars ++ ['\''])
  | a => a.text

end Atom

end RecordFilter
