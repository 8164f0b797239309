import RecordFilter.Atom
import RecordFilter.Json.Document
import RecordFilter.Json.Text

/-!
# Untyped arguments

A `Raw` value is an argument of a filter before its type is known: what stands in a request, or
an atomic value that the caller already has.  Its rendering (`Raw.shown`) is the compact data text,
or the shown form of an atomic value.
-/

namespace RecordFilter

/-- A single value without a category. -/
inductive Scalar where
  | bool (b : Bool)
  | int (i : IntKind.int64.Value)
  | uint (i : IntKind.uint64.Value)
  | float (x : Double)
  | text (s : String)

/-- An argument before its type is known. -/
inductive Raw where
  | null
  | scalar (s : Scalar)
  | bytes (bs : List UInt8)
  | sequence (items : List Raw)
  | map (fields : List (String × Raw))
  | native (a : Atom)

/-- An integer as a data value. -/
def IntKind.Value.toJson {k : IntKind} (i : k.Value) : Json :=
  .number (.integer ⟨i.1, by
    have h := i.2
    unfold Json.InBounds
    cases k <;> simp only [IntKind.least, IntKind.greatest] at h <;> omega⟩)

/-- The data value of a scalar. -/
def Scalar.toJson : Scalar → Json
  | bool b => .bool b
  | int i => i.toJson
  | uint i => i.toJson
  | float x => .ofDouble x
  | text s => .string s

/-- An integer that data can hold and that is above the signed range fits the unsigned one. -/
theorem Json.InBounds.uint64 {i : Int} (h : InBounds i) (h' : ¬i ≤ IntKind.int64.greatest) :
    IntKind.uint64.least ≤ i ∧ i ≤ IntKind.uint64.greatest := by
  have := h.2
  simp only [IntKind.least, IntKind.greatest] at h' ⊢
  omega

/-- The scalar that a number of the data format is: signed if it can be. -/
def Scalar.ofNumber : Json.Number → Scalar
  | .integer i =>
    if h : i.1 ≤ IntKind.int64.greatest then .int ⟨i.1, i.2.1, h⟩
    else .uint ⟨i.1, i.2.uint64 h⟩
  | .float x => .float x.1

/-- The data value of an atomic value: numbers and truth values as such, all else as text. -/
def Atom.toJson : Atom → Json
  | boolean b => .bool b
  | integer _ i => i.toJson
  | float32 x => .ofDouble (x.convert .double)
  | float64 x => .ofDouble x
  | a => .string a.text

namespace Raw

/-- Whether the argument is null. -/
def isNull : Raw → Bool
  | null => true
  | _ => false

/-- The kind of a scalar in messages. -/
def scalarKind : Scalar → String
  | .bool _ => "bool"
  | .int _ | .uint _ | .float _ => "number"
  | .text _ => "string"

/-- The kind of an argument in messages. -/
def kind : Raw → String
  | null => "null"
  | scalar s => scalarKind s
  | bytes _ => "bytes"
  | sequence _ => "array"
  | map _ => "object"
  | native _ => "native"

mutual

/-- The data value of an argument; bytes are an array of numbers. -/
def toJson : Raw → Json
  | null => .null
  | scalar s => s.toJson
  | bytes bs => .array (bs.map fun b => .ofNat b.toNat)
  | sequence items => .array (itemsToJson items)
  | map fields => .ofFields (fieldsToJson fields)
  | native a => a.toJson

/-- The data values of a list. -/
def itemsToJson : List Raw → List Json
  | [] => []
  | r :: rs => toJson r :: itemsToJson rs

/-- The data values of fields. -/
def fieldsToJson : List (String × Raw) → List (String × Json)
  | [] => []
  | (k, r) :: rest => (k, toJson r) :: fieldsToJson rest

end

mutual

/-- The argument that a data value is. -/
def ofJson : Json → Raw
  | .null => null
  | .bool b => scalar (.bool b)
  | .number n => scalar (.ofNumber n)
  | .string s => scalar (.text s)
  | .array items => sequence (ofItems items)
  | .object fields => map (ofJsonFields fields)

/-- The arguments of a list. -/
def ofItems : List Json → List Raw
  | [] => []
  | v :: vs => ofJson v :: ofItems vs

/-- The arguments of fields. -/
def ofJsonFields : List (String × Json) → List (String × Raw)
  | [] => []
  | (k, v) :: rest => (k, ofJson v) :: ofJsonFields rest

end

/-- The rendering in messages. -/
def shown : Raw → String
  | native a => a.shown
  | r => r.toJson.text

end Raw

end RecordFilter
