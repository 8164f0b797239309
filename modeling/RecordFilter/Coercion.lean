import RecordFilter.Calendar.Reading
import RecordFilter.Raw
import RecordFilter.Text.Utf8

/-!
# Coercion of arguments

`Raw.coerce` gives an untyped argument a category.  Null is absent, or an error where a value is
required; an atomic value of the category is taken as it is and one of another category is first
reduced to a scalar; bytes become text or an identifier; arrays and objects are never one value.

A scalar becomes what its kind allows: a number is range-checked into numeric categories, is a
code point or its own decimal text, and never a truth value, an identifier or a time; a truth
value is itself or text; a text is read in the form of the category.  `Raw.coerceName` takes one of
the names of an enumeration instead.
-/

namespace RecordFilter

/-- Why a value does not become one of the target. -/
inductive CoercionReason where
  | integer (fault : IntFault)
  | float (fault : Binary.Fault)
  | decimal (fault : Decimal.Fault)
  | decimalRange
  | uuid (fault : Uuid.Fault)
  | utf8 (fault : Text.Utf8Fault)
  | notIntegral
  | beyondSingle
  | notACodePoint
  | notOneCharacter
  | notATruthValue
  | notADate
  | notADateTime
  | notAMoment
  | notATime
  | notATimeSpan
  | undeclared (name : String)

/-- The text of a reason. -/
def CoercionReason.message : CoercionReason → String
  | integer fault => fault.message
  | float fault => fault.message
  | decimal fault => fault.message
  | decimalRange => "Error while converting to Decimal"
  | uuid fault => fault.message
  | utf8 fault => fault.message
  | notIntegral => "not an integral value"
  | beyondSingle => "out of range for f32"
  | notACodePoint => "not a valid code point"
  | notOneCharacter => "expected exactly one character"
  | notATruthValue => "expected 'true' or 'false'"
  | notADate => "expected YYYY-MM-DD"
  | notADateTime => "expected YYYY-MM-DDTHH:MM:SS"
  | notAMoment => "expected an RFC 3339 timestamp"
  | notATime => "expected HH:MM[:SS]"
  | notATimeSpan => "expected [-][d.]hh:mm[:ss[.f]]"
  | undeclared name => "'" ++ name ++ "' is not a declared value"

/-- A coercion that failed; `value` is the rendering of the argument and `target` the name of the
type that was wanted. -/
inductive CoercionError where
  /-- A value is needed and there is none. -/
  | required (target : String)
  /-- The value is of a proper kind and still does not fit. -/
  | conversion (value target : String) (reason : CoercionReason)
  /-- Values of this kind never become one of the target. -/
  | notSupported (value kind target : String)
  /-- An array or an object stands where one value is wanted. -/
  | singleValueExpected (value target : String)

namespace CoercionError

/-- The code of an error. -/
def code : CoercionError → String
  | required _ | conversion .. => "TYPE_CONVERSION"
  | notSupported .. => "TYPE_CONVERSION_NOT_SUPPORTED"
  | singleValueExpected .. => "TYPE_CONVERSION_ATOM_VALUE_EXPECTED"

/-- The rendering of the argument. -/
def value : CoercionError → String
  | required _ => "null"
  | conversion value _ _ | notSupported value _ _ | singleValueExpected value _ => value

/-- The name of the type that was wanted. -/
def target : CoercionError → String
  | required target | conversion _ target _ | notSupported _ _ target
  | singleValueExpected _ target => target

/-- The text of an error. -/
def message : CoercionError → String
  | required target => "A value is required for non-nullable " ++ target
  | conversion value target reason =>
    "Cannot convert " ++ value ++ " to " ++ target ++ ": " ++ reason.message
  | notSupported value kind target =>
    "Conversion from " ++ kind ++ " " ++ value ++ " to " ++ target ++ " is not supported"
  | singleValueExpected value target =>
    "Expected a single value for " ++ target ++ ", got " ++ value

end CoercionError

/-! ### Scalars -/

namespace Scalar

/-- The scalar of a fixed-width integer: signed for signed kinds. -/
def ofFixed : (k : IntKind) → k.Value → Scalar
  | .int8, i => int (i.widen (by decide))
  | .int16, i => int (i.widen (by decide))
  | .int32, i => int (i.widen (by decide))
  | .int64, i => int i
  | .uint8, i => uint (i.widen (by decide))
  | .uint16, i => uint (i.widen (by decide))
  | .uint32, i => uint (i.widen (by decide))
  | .uint64, i => uint i

/-- The scalar to which an atomic value of another category is reduced. -/
def ofAtom : Atom → Scalar
  | .boolean b => .bool b
  | .integer k i => ofFixed k i
  | .float32 x => .float (x.convert .double)
  | .float64 x => .float x
  | a => .text a.text

/-- The greatest magnitude of a binary number that is taken for an integer. -/
def integralBound : Nat := 19000000000000000000

/-- The integer that a binary number is, if it is one of moderate size. -/
def integral? (x : Double) : Option Int :=
  x.toInt?.filter fun i => i.natAbs ≤ integralBound

/-- A character with this code point. -/
def codePoint (i : Int) : Except CoercionReason Atom :=
  if 0 ≤ i ∧ i.toNat.isValidChar then .ok (.char (Char.ofNat i.toNat)) else .error .notACodePoint

/-- An integer as an atomic value; nothing for the categories that numbers never become. -/
def ofInteger (i : Int) : Category → Option (Except CoercionReason Atom)
  | .integer k => some (((k.fit i).map (Atom.integer k)).mapError .integer)
  | .float32 => some (.ok (.float32 (.convert .single (.ofInt .double i))))
  | .float64 => some (.ok (.float64 (.ofInt .double i)))
  | .decimal => some (match Decimal.ofInt? i with
    | some d => .ok (.decimal d)
    | none => .error .decimalRange)
  | .char => some (codePoint i)
  | .string => some (.ok (.string (String.ofList (Text.signedDigits i))))
  | _ => none

/-- A binary number as an atomic value; nothing for the categories that numbers never become. -/
def ofFloat (x : Double) : Category → Option (Except CoercionReason Atom)
  | .integer k => some (match integral? x with
    | some i => ((k.fit i).map (Atom.integer k)).mapError .integer
    | none => .error .notIntegral)
  | .float32 =>
    if x.isFinite ∧ x.abs.compare? ((Binary.greatest .single).convert .double) = some .gt then
      some (.error .beyondSingle)
    else some (.ok (.float32 (x.convert .single)))
  | .float64 => some (.ok (.float64 x))
  | .decimal => some (match Decimal.ofDouble? x with
    | some d => .ok (.decimal d)
    | none => .error .decimalRange)
  | .char => some (match integral? x with
    | some i => codePoint i
    | none => .error .notIntegral)
  | .string => some (.ok (.string (String.ofList x.plain)))
  | _ => none

/-- A truth value as an atomic value. -/
def ofBool (b : Bool) : Category → Option (Except CoercionReason Atom)
  | .boolean => some (.ok (.boolean b))
  | .string => some (.ok (.string (Atom.boolean b).text))
  | _ => none

/-- Whether two texts agree up to the case of ASCII letters. -/
def sameIgnoringCase (a b : List Char) : Bool := a.map Char.toLower == b.map Char.toLower

/-- An optional value, or the reason why there is none. -/
def orReason {α : Type} (make : α → Atom) (reason : CoercionReason) :
    Option α → Except CoercionReason Atom
  | some a => .ok (make a)
  | none => .error reason

/-- A text read in the form of a category; blanks around it matter to characters and texts
only. -/
def ofText (s : String) : Category → Except CoercionReason Atom
  | .string => .ok (.string s)
  | .char => match s.toList with
    | [c] => .ok (.char c)
    | _ => .error .notOneCharacter
  | .boolean =>
    let cs := Text.trimChars s.toList
    if sameIgnoringCase cs ['t', 'r', 'u', 'e'] then .ok (.boolean true)
    else if sameIgnoringCase cs ['f', 'a', 'l', 's', 'e'] then .ok (.boolean false)
    else .error .notATruthValue
  | .integer k => ((k.read (Text.trimChars s.toList)).map (Atom.integer k)).mapError .integer
  | .float32 => ((Binary.read .single (Text.trimChars s.toList)).map Atom.float32).mapError .float
  | .float64 => ((Binary.read .double (Text.trimChars s.toList)).map Atom.float64).mapError .float
  | .decimal => ((Decimal.read (Text.trimChars s.toList)).map Atom.decimal).mapError .decimal
  | .uuid => ((Uuid.read (Text.trimChars s.toList)).map Atom.uuid).mapError .uuid
  | .date => orReason .date .notADate (Date.read (Text.trimChars s.toList))
  | .dateTime => orReason .dateTime .notADateTime (DateTime.read (Text.trimChars s.toList))
  | .dateTimeOffset =>
    orReason .dateTimeOffset .notAMoment (OffsetDateTime.read (Text.trimChars s.toList))
  | .time => orReason .time .notATime (TimeOfDay.read (Text.trimChars s.toList))
  | .timeSpan => orReason .timeSpan .notATimeSpan (TimeSpan.read (Text.trimChars s.toList))

/-- A scalar as an atomic value; nothing where its kind never becomes one. -/
def convert? (target : Category) : Scalar → Option (Except CoercionReason Atom)
  | bool b => ofBool b target
  | int i => ofInteger i.1 target
  | uint i => ofInteger i.1 target
  | float x => ofFloat x target
  | text s => some (ofText s target)

/-- A scalar as an atomic value. -/
def coerce (s : Scalar) (target : Category) : Except CoercionError Atom :=
  match s.convert? target with
  | some (.ok a) => .ok a
  | some (.error reason) => .error (.conversion s.toJson.text target.typeName reason)
  | none => .error (.notSupported s.toJson.text (Raw.scalarKind s) target.typeName)

end Scalar

/-! ### Arguments -/

namespace Raw

/-- Bytes as an atomic value; nothing where bytes never become one. -/
def ofBytes? (bs : List UInt8) : Category → Option (Except CoercionReason Atom)
  | .string => some (((Text.decodeUtf8 bs).map Atom.string).mapError .utf8)
  | .uuid => some (((Uuid.ofBytes bs).map Atom.uuid).mapError .uuid)
  | _ => none

/-- An argument as a value of a category; null is absent unless a value is required. -/
def coerce (raw : Raw) (target : Category) (required : Bool) :
    Except CoercionError (Option Atom) :=
  match raw with
  | null => if required then .error (.required target.typeName) else .ok none
  | native a =>
    if a.category = target then .ok (some a) else some <$> (Scalar.ofAtom a).coerce target
  | scalar s => some <$> s.coerce target
  | bytes bs =>
    match ofBytes? bs target with
    | some (.ok a) => .ok (some a)
    | some (.error reason) => .error (.conversion raw.shown target.typeName reason)
    | none => .error (.notSupported raw.shown raw.kind target.typeName)
  | sequence _ | map _ => .error (.singleValueExpected raw.shown target.typeName)

/-- The text that names a value of an enumeration. -/
def nameText? : Raw → Option String
  | scalar (.text s) | native (.string s) => some s
  | _ => none

/-- An argument as one of the names of an enumeration, case and all. -/
def coerceName (raw : Raw) (typeName : String) (names : List String) (required : Bool) :
    Except CoercionError (Option String) :=
  match raw with
  | null => if required then .error (.required typeName) else .ok none
  | sequence _ | map _ => .error (.singleValueExpected raw.shown typeName)
  | raw =>
    match raw.nameText? with
    | none => .error (.notSupported raw.shown raw.kind typeName)
    | some s =>
      if s ∈ names then .ok (some s)
      else .error (.conversion raw.shown typeName (.undeclared s))

end Raw

end RecordFilter
