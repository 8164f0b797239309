import RecordFilter.Json.Document

/-!
# Typed data

Decoders take a typed value from a document.  A record stands as an object, in which fields that
no one asks for do no harm and asked-for ones occur at most once, or as an array of its fields
in order.  A name from a fixed list stands as a text, or as an object of that one key with null.
-/

namespace RecordFilter.Json.Document

/-- A text. -/
def string? : Document → Option String
  | string s => some s
  | _ => none

/-- A truth value. -/
def bool? : Document → Option Bool
  | bool b => some b
  | _ => none

/-- An integer. -/
def int? : Document → Option Int
  | number (.integer i) => some i.1
  | _ => none

/-- An integer without sign. -/
def nat? (d : Document) : Option Nat :=
  d.int?.bind fun i => if 0 ≤ i then some i.toNat else none

/-- A number of 64 bits, an integer being rounded to one. -/
def double? : Document → Option Double
  | number (.integer i) => some (.ofInt .double i.1)
  | number (.float x) => some x.1
  | _ => none

/-- A name that a type gives to its values. -/
def named? {α : Type} (ofName? : String → Option α) : Document → Option α
  | string s => ofName? s
  | object [(some s, null)] => ofName? s
  | _ => none

/-- A value, or null for none. -/
def option? {α : Type} (decode : Document → Option α) : Document → Option (Option α)
  | null => some none
  | d => (decode d).map some

/-- The values of an array. -/
def list? {α : Type} (decode : Document → Option α) : Document → Option (List α)
  | array items => items.mapM decode
  | _ => none

/-- What a record holds for one of its fields. -/
inductive Slot where
  | given (d : Document)
  /-- The object has no such key. -/
  | noKey
  /-- The array is too short. -/
  | noElement

/-- What an object holds under a key; nothing if it holds the key twice. -/
def slot? (fields : List (String × Document)) (name : String) : Option Slot :=
  match fields.filter (·.1 = name) with
  | [] => some .noKey
  | [(_, d)] => some (.given d)
  | _ => none

/-- What an array holds for the fields of a record, in order. -/
def elements : List String → List Document → List Slot
  | [], _ => []
  | _ :: names, [] => .noElement :: elements names []
  | _ :: names, d :: ds => .given d :: elements names ds

/-- What a record holds for each of its fields. -/
def slots? (names : List String) : Document → Option (List Slot)
  | object fields => do
    let fields ← fields.mapM fun f => f.1.map (·, f.2)
    names.mapM (slot? fields)
  | array items => if items.length ≤ names.length then some (elements names items) else none
  | _ => none

namespace Slot

/-- A field that must be there. -/
def required {α : Type} (decode : Document → Option α) : Slot → Option α
  | given d => decode d
  | _ => none

/-- A field that may be null; an object may leave it out, an array may not. -/
def nullable {α : Type} (decode : Document → Option α) : Slot → Option (Option α)
  | given d => option? decode d
  | noKey => some none
  | noElement => none

/-- A field that may be left out. -/
def withDefault {α : Type} (decode : Document → Option α) (default : α) : Slot → Option α
  | given d => decode d
  | _ => some default

end Slot

/-! ### Recursive types -/

mutual

/-- The number of levels of a document. -/
def height : Document → Nat
  | array items => listHeight items + 1
  | object fields => fieldsHeight fields + 1
  | _ => 1

/-- The greatest number of levels in a list. -/
def listHeight : List Document → Nat
  | [] => 0
  | d :: ds => max (height d) (listHeight ds)

/-- The greatest number of levels among fields. -/
def fieldsHeight : List (Option String × Document) → Nat
  | [] => 0
  | (_, d) :: rest => max (height d) (fieldsHeight rest)

end

/-- A decoder that calls itself on parts of a document, at most `levels` deep. -/
def unfoldDecoder {α : Type} (step : (Document → Option α) → Document → Option α) :
    Nat → Document → Option α
  | 0, _ => none
  | levels + 1, d => step (unfoldDecoder step levels) d

/-- A decoder that calls itself on parts of a document. -/
def recursive {α : Type} (step : (Document → Option α) → Document → Option α) (d : Document) :
    Option α :=
  unfoldDecoder step d.height d

/-- An item of an array has fewer levels than the array. -/
theorem height_lt_of_mem {d : Document} {items : List Document} (h : d ∈ items) :
    d.height < (array items).height := by
  have hle : d.height ≤ listHeight items := by
    induction items with
    | nil => cases h
    | cons e es ih =>
      simp only [listHeight]
      cases h with
      | head => omega
      | tail _ h => have := ih h; omega
  simp only [height]; omega

/-- A field's value has fewer levels than the object. -/
theorem height_lt_of_mem_fields {k : Option String} {d : Document}
    {fields : List (Option String × Document)} (h : (k, d) ∈ fields) :
    d.height < (object fields).height := by
  have hle : d.height ≤ fieldsHeight fields := by
    induction fields with
    | nil => cases h
    | cons e es ih =>
      obtain ⟨k', e⟩ := e
      simp only [fieldsHeight]
      cases h with
      | head => omega
      | tail _ h => have := ih h; omega
  simp only [height]; omega

end RecordFilter.Json.Document
