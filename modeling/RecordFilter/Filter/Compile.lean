import RecordFilter.Coercion
import RecordFilter.Filter.Basic
import RecordFilter.Predicate

/-!
# From filters to predicates

`FilterContext.predicate` compiles one filter against a type: the path is resolved, the arguments
are counted, equality with null becomes a null test, the operator is looked up for the shape of the
field, and last the arguments are coerced to its type; the first step to fail gives the error.

`FilterContext.compile` compiles a tree.  Its parts are joined from left to right, each after its
own subtree is compiled; neither connective binds tighter than the other.
-/

namespace RecordFilter

/-- Why a filter is refused. -/
inductive FilterFault where
  | path (fault : PathFault)
  | arity (operator : Operator) (given : Nat)
  | unsupportedOperator (operator : Operator) (typeName : String)
  | coercion (error : CoercionError)
  | emptySeparator
  | emptySequence (list : String)
  | notComparable (typeName : String)
  | pageSize (size most : UInt64)

/-- A refused filter: the path as it was given, and why. -/
structure FilterError where
  path : String
  fault : FilterFault

namespace FilterError

/-- The code of an error. -/
def code (e : FilterError) : String :=
  match e.fault with
  | .path (.unknownField ..) => "UNKNOWN_FIELD"
  | .unsupportedOperator .. => "UNSUPPORTED_OPERATOR"
  | .coercion _ => "COERCION"
  | _ => "ARGUMENT"

/-- The coercion that failed, if one did. -/
def coercion? (e : FilterError) : Option CoercionError :=
  match e.fault with
  | .coercion error => some error
  | _ => none

/-- How many arguments an operator takes. -/
def arityText (o : Operator) : String :=
  if o.arity.1 = o.arity.2 then toString o.arity.1
  else toString o.arity.1 ++ " to " ++ toString o.arity.2

/-- The text of an error. -/
def message (e : FilterError) : String :=
  match e.fault with
  | .path .emptySegment => "Path '" ++ e.path ++ "' has an empty segment"
  | .path .tooDeep => "Path '" ++ e.path ++ "' has more than two segments"
  | .path (.unknownField segment typeName) =>
    "Field '" ++ segment ++ "' of path '" ++ e.path ++ "' does not exist on " ++ typeName
  | .arity operator given =>
    "Operator " ++ operator.name ++ " takes " ++ arityText operator ++ " argument(s), "
      ++ toString given ++ " given"
  | .unsupportedOperator operator typeName =>
    "Operator " ++ operator.name ++ " is not supported on '" ++ e.path ++ "' of type " ++ typeName
  | .coercion error =>
    "Invalid argument for '" ++ e.path ++ "': " ++ error.code ++ ": " ++ error.message
  | .emptySeparator => "InSequence separator must not be empty"
  | .emptySequence list => "InSequence list " ++ Text.quoted list ++ " has no elements"
  | .notComparable typeName => typeName ++ " values cannot be compared"
  | .pageSize size most =>
    "Page size " ++ toString size.toNat ++ " is outside 1..=" ++ toString most.toNat

end FilterError

/-! ### Sequences in text -/

/-- Cuts a text at each occurrence of a separator that is not empty.  `skip` characters belong to
the separator found last, and `back` holds the piece so far, last character first. -/
def cutAt (separator : List Char) (skip : Nat) (back : List Char) : List Char → List (List Char)
  | [] => [back.reverse]
  | c :: cs =>
    match skip with
    | n + 1 => cutAt separator n back cs
    | 0 =>
      if separator.isPrefixOf (c :: cs) then
        back.reverse :: cutAt separator (separator.length - 1) [] cs
      else cutAt separator 0 (c :: back) cs

/-- The elements of a sequence: the pieces between separators without blanks around them, empty
ones left out. -/
def sequenceElements (separator list : String) : List String :=
  (((cutAt separator.toList 0 [] list.toList).map Text.trimChars).filter (· ≠ [])).map
    String.ofList

/-! ### Compilation -/

/-- What filters are compiled against: a family of types, one of them, and the separator for
sequences that name none. -/
structure FilterContext where
  family : TypeFamily
  element : TypeExpr
  separator : String

namespace FilterContext

/-- An argument as the right side of a comparison with a value of a type. -/
def operand (F : TypeFamily) (t : TypeExpr) (raw : Raw) : Except FilterFault Operand :=
  let d := F.describe t
  match d.kind with
  | .atomic c =>
    match raw.coerce c true with
    | .ok (some a) => .ok (.atom a)
    | .ok none => .error (.coercion (.required c.typeName))
    | .error e => .error (.coercion e)
  | .enumeration values =>
    match raw.coerceName d.name values true with
    | .ok (some name) => .ok (.enum name)
    | .ok none => .error (.coercion (.required d.name))
    | .error e => .error (.coercion e)
  | .collection _ | .composite _ => .error (.notComparable (F.declaredName t))

/-- An argument as text. -/
def textArgument (raw : Raw) : Except FilterFault String :=
  match raw.coerce .string true with
  | .ok (some (.string s)) => .ok s
  | .ok _ => .error (.coercion (.required Category.string.typeName))
  | .error e => .error (.coercion e)

/-- Equality with null is a null test. -/
def nullTestOr (o : Operator) (arguments : List Raw) : Operator :=
  match o, arguments with
  | .equalTo, raw :: _ => if raw.isNull then .isNull else o
  | .notEqualTo, raw :: _ => if raw.isNull then .isNotNull else o
  | _, _ => o

/-- The comparison of a field with an argument. -/
def comparison (F : TypeFamily) (path : FieldPath) (t : TypeExpr) (op : Comparison) (raw : Raw) :
    Except FilterFault Predicate :=
  (operand F t raw).map (Predicate.compare path op)

/-- The disjunction of predicates from left to right. -/
def anyOf (first : Predicate) (rest : List Predicate) : Predicate := rest.foldl .or first

/-- The separator of a sequence. -/
def sequenceSeparator (default : String) : Option Raw → Except FilterFault String
  | none | some .null => .ok default
  | some raw => textArgument raw

/-- Membership of a field in a sequence: equality with its first element, or with a later one. -/
def sequence (F : TypeFamily) (separator : String) (path : FieldPath) (t : TypeExpr) (list : Raw)
    (explicit : Option Raw) : Except FilterFault Predicate := do
  let separator ← sequenceSeparator separator explicit
  if separator = "" then throw .emptySeparator
  let list ← textArgument list
  match sequenceElements separator list with
  | [] => throw (.emptySequence list)
  | first :: rest =>
    let equals (s : String) := comparison F path t .eq (.scalar (.text s))
    return anyOf (← equals first) (← rest.mapM equals)

/-- An operator that suits a field, applied to arguments of the right number. -/
def apply (F : TypeFamily) (separator : String) (path : FieldPath) (t : TypeExpr) (o : Operator)
    (arguments : List Raw) : Except FilterFault Predicate :=
  match o, arguments with
  | .isNull, _ => .ok (.isNull path)
  | .isNotNull, _ => .ok (.isNotNull path)
  | .equalTo, [a] => comparison F path t .eq a
  | .notEqualTo, [a] => comparison F path t .ne a
  | .lessThan, [a] => comparison F path t .lt a
  | .lessOrEqual, [a] => comparison F path t .le a
  | .greaterThan, [a] => comparison F path t .gt a
  | .greaterOrEqual, [a] => comparison F path t .ge a
  | .inRange, [low, high] => do
    return .and (← comparison F path t .ge low) (← comparison F path t .le high)
  | .inSequence, [list] => sequence F separator path t list none
  | .inSequence, [list, explicit] => sequence F separator path t list (some explicit)
  | .stringContains, [a] => (textArgument a).map (.contains path)
  | .collectionIsEmpty, _ => .ok (.count path .eq 0)
  | .collectionIsNotEmpty, _ => .ok (.count path .gt 0)
  | o, arguments => .error (.arity o arguments.length)

/-- The predicate of one filter, or why there is none. -/
def build (ctx : FilterContext) (path : String) (o : Operator) (arguments : List Raw) :
    Except FilterFault Predicate :=
  match FieldPath.resolve ctx.family ctx.element path with
  | .error fault => .error (.path fault)
  | .ok (fieldPath, t) =>
    if !o.accepts arguments.length then .error (.arity o arguments.length)
    else
      let o := nullTestOr o arguments
      if o ∈ (ctx.family.describe t).shape.operators then
        apply ctx.family ctx.separator fieldPath t o arguments
      else .error (.unsupportedOperator o (ctx.family.declaredName t))

/-- The predicate of one filter. -/
def predicate (ctx : FilterContext) (f : PropertyFilter) : Except FilterError Predicate :=
  (ctx.build f.path f.operator f.arguments).mapError (⟨f.path, ·⟩)

/-- A connective applied to predicates. -/
def join : Connective → Predicate → Predicate → Predicate
  | .and => .and
  | .or => .or

mutual

/-- The predicate of a tree. -/
def compile (ctx : FilterContext) : FilterTree → Except FilterError Predicate
  | .node first none _ => ctx.predicate first
  | .node first (some c) others =>
    match ctx.predicate first with
    | .error e => .error e
    | .ok p => ctx.compileOthers c p others

/-- A predicate joined with trees from left to right. -/
def compileOthers (ctx : FilterContext) (c : Connective) (p : Predicate) :
    List FilterTree → Except FilterError Predicate
  | [] => .ok p
  | t :: rest =>
    match ctx.compile t with
    | .error e => .error e
    | .ok q => ctx.compileOthers c (join c p q) rest

end

end FilterContext

end RecordFilter
