import RecordFilter.Number.Binary
import RecordFilter.Text.Digits

/-!
# Data values

`Json` is the free-form value of the data format.  A number is an integer of 64 bits, with or
without sign, or else a finite binary number.  An object has its keys in ascending order, each
once; `Json.ofFields` makes it so.
-/

namespace RecordFilter

/-- The bounds of integers in data. -/
def Json.InBounds (i : Int) : Prop := -9223372036854775808 ≤ i ∧ i < 18446744073709551616

instance (i : Int) : Decidable (Json.InBounds i) := by unfold Json.InBounds; infer_instance

/-- A number of the data format. -/
inductive Json.Number where
  | integer (i : { i : Int // Json.InBounds i })
  | float (x : { x : Double // x.isFinite = true })
deriving DecidableEq

/-- A free-form value. -/
inductive Json where
  | null
  | bool (b : Bool)
  | number (n : Json.Number)
  | string (s : String)
  | array (items : List Json)
  | object (fields : List (String × Json))

namespace Json

/-- The value of an integer within bounds. -/
def ofInt? (i : Int) : Option Json :=
  if h : InBounds i then some (.number (.integer ⟨i, h⟩)) else none

/-- The value of a natural number that a count or an index is; beyond 64 bits there is none, and
the greatest stands for it. -/
def ofNat (n : Nat) : Json :=
  if h : InBounds n then .number (.integer ⟨n, h⟩)
  else .number (.integer ⟨18446744073709551615, by decide⟩)

/-- The value of a binary number; one that is not finite is null. -/
def ofDouble (x : Double) : Json :=
  if h : x.isFinite then .number (.float ⟨x, h⟩) else .null

/-- Puts a value under a key, in ascending order of the keys, in place of an earlier one. -/
def insert (key : String) (value : Json) : List (String × Json) → List (String × Json)
  | [] => [(key, value)]
  | (k, v) :: rest =>
    if key < k then (key, value) :: (k, v) :: rest
    else if key = k then (key, value) :: rest
    else (k, v) :: insert key value rest

/-- An object of fields in any order; of two with one key the later counts. -/
def ofFields (fields : List (String × Json)) : Json :=
  .object (fields.foldl (fun acc f => insert f.1 f.2 acc) [])

/-- The value under a key of an object. -/
def get? (key : String) : Json → Option Json
  | object fields => fields.lookup key
  | _ => none

/-- The text of a value that is one. -/
def string? : Json → Option String
  | string s => some s
  | _ => none

/-- The items of a value that is an array. -/
def array? : Json → Option (List Json)
  | array items => some items
  | _ => none

/-- Whether a value is null. -/
def isNull : Json → Bool
  | null => true
  | _ => false

/-- The integer that a value is, if it is one without sign. -/
def nat? : Json → Option Nat
  | number (.integer i) => if 0 ≤ i.1 then some i.1.toNat else none
  | _ => none

end Json

end RecordFilter
