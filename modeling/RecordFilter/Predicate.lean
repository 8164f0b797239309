import RecordFilter.FieldPath

/-!
# Predicates

A `Predicate` is a condition on one record.  A comparison holds only between comparable values, save
that values which cannot be compared differ: so null differs from every value, and satisfies no
other comparison.  `Predicate.holds` decides a predicate and `Predicate.text` writes it, each
conjunction and disjunction between parentheses.
-/

namespace RecordFilter

/-- The comparisons. -/
inductive Comparison where
  | eq | ne | lt | le | gt | ge
deriving Repr, DecidableEq

namespace Comparison

/-- Whether a comparison holds when its left side stands in this order to its right side. -/
def holds : Comparison → Ordering → Bool
  | eq, o => o = .eq
  | ne, o => o != .eq
  | lt, o => o = .lt
  | le, o => o != .gt
  | gt, o => o = .gt
  | ge, o => o != .lt

/-- The sign of a comparison. -/
def symbol : Comparison → String
  | eq => "="
  | ne => "!="
  | lt => "<"
  | le => "<="
  | gt => ">"
  | ge => ">="

end Comparison

/-- The right side of a comparison. -/
inductive Operand where
  | atom (a : Atom)
  /-- A value of an enumeration, by name. -/
  | enum (name : String)

/-- The text of an operand. -/
def Operand.text : Operand → String
  | atom a => a.shown
  | enum name => name

/-- The order in which a field value stands to an operand, if they can be compared. -/
def FieldValue.compare? : FieldValue → Operand → Option Ordering
  | atom a, .atom b => a.compare? b
  | enum a, .enum b => some (Ord.compare a b)
  | _, _ => none

/-- Whether a list of characters occurs in another, in one piece. -/
def occursIn (needle : List Char) : List Char → Bool
  | [] => needle.isEmpty
  | c :: cs => needle.isPrefixOf (c :: cs) || occursIn needle cs

/-- A condition on one record. -/
inductive Predicate where
  | isNull (path : FieldPath)
  | isNotNull (path : FieldPath)
  | compare (path : FieldPath) (op : Comparison) (operand : Operand)
  /-- The text of a field contains another. -/
  | contains (path : FieldPath) (needle : String)
  /-- The length of a collection compares so to a number. -/
  | count (path : FieldPath) (op : Comparison) (number : Nat)
  | and (left right : Predicate)
  | or (left right : Predicate)

namespace Predicate

/-- Whether a record satisfies a predicate. -/
def holds (r : Record) : Predicate → Bool
  | isNull path => (path.value r).isNull
  | isNotNull path => !(path.value r).isNull
  | compare path op operand =>
    match (path.value r).compare? operand with
    | some o => op.holds o
    | none => op = .ne
  | contains path needle =>
    match path.value r with
    | .atom (.string s) => occursIn needle.toList s.toList
    | _ => false
  | count path op number =>
    match path.value r with
    | .collection length => op.holds (Ord.compare length number)
    | _ => false
  | and left right => holds r left && holds r right
  | or left right => holds r left || holds r right

/-- The text of a predicate. -/
def text : Predicate → String
  | isNull path => path.text ++ " IS NULL"
  | isNotNull path => path.text ++ " IS NOT NULL"
  | compare path op operand => path.text ++ " " ++ op.symbol ++ " " ++ operand.text
  | contains path needle => path.text ++ " CONTAINS " ++ Text.quoted needle
  | count path op number =>
    "COUNT(" ++ path.text ++ ") " ++ op.symbol ++ " " ++ toString number
  | and left right => "(" ++ text left ++ " AND " ++ text right ++ ")"
  | or left right => "(" ++ text left ++ " OR " ++ text right ++ ")"

end Predicate

end RecordFilter
