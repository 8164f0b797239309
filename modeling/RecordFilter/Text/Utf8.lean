/-!
# Bytes that hold text

`decodeUtf8` reads bytes as UTF-8.  A refusal says how many bytes in front of the fault are sound,
and whether the fault is a sequence that begins no character or one that ends too early.
-/

namespace RecordFilter.Text

/-- Why bytes are not text; the bytes before `valid` are sound. -/
inductive Utf8Fault where
  /-- `length` bytes at `valid` begin no character. -/
  | invalid (valid length : Nat)
  /-- The bytes from `valid` on begin a character and end too early. -/
  | incomplete (valid : Nat)
deriving Repr, DecidableEq

/-- The text of a fault. -/
def Utf8Fault.message : Utf8Fault → String
  | .invalid valid length =>
    s!"invalid utf-8 sequence of {length} bytes from index {valid}"
  | .incomplete valid => s!"incomplete utf-8 byte sequence from index {valid}"

/-- The inclusive bounds of the bytes that follow a first byte, and the first byte's share of the
code point; nothing if no character begins with it. -/
def characterShape (first : UInt8) : Option (Nat × List (UInt8 × UInt8)) :=
  let any := (0x80, 0xBF)
  if first < 0x80 then some (first.toNat, [])
  else if first < 0xC2 then none
  else if first < 0xE0 then some (first.toNat - 0xC0, [any])
  else if first < 0xF0 then
    let second := if first = 0xE0 then (0xA0, 0xBF) else if first = 0xED then (0x80, 0x9F) else any
    some (first.toNat - 0xE0, [second, any])
  else if first < 0xF5 then
    let second := if first = 0xF0 then (0x90, 0xBF) else if first = 0xF4 then (0x80, 0x8F) else any
    some (first.toNat - 0xF0, [second, any, any])
  else none

/-- The code point after the bytes that must follow; `index` is where the character begins and
`seen` the number of its bytes read so far. -/
def followers (index seen code : Nat) :
    List (UInt8 × UInt8) → List UInt8 → Except Utf8Fault Nat
  | [], _ => .ok code
  | _ :: _, [] => .error (.incomplete index)
  | bound :: bounds, b :: rest =>
    if bound.1 ≤ b ∧ b ≤ bound.2 then
      followers index (seen + 1) (code * 64 + (b.toNat - 0x80)) bounds rest
    else .error (.invalid index seen)

/-- The characters of the bytes from `index` on. -/
def decodeFrom (index : Nat) : List UInt8 → Except Utf8Fault (List Char)
  | [] => .ok []
  | first :: rest =>
    match characterShape first with
    | none => .error (.invalid index 1)
    | some (share, bounds) =>
      match followers index 1 share bounds rest with
      | .error fault => .error fault
      | .ok code =>
        (Char.ofNat code :: ·) <$>
          decodeFrom (index + 1 + bounds.length) (rest.drop bounds.length)
termination_by bytes => bytes.length
decreasing_by simp only [List.length_drop, List.length_cons]; omega

/-- The text that bytes hold as UTF-8. -/
def decodeUtf8 (bytes : List UInt8) : Except Utf8Fault String :=
  String.ofList <$> decodeFrom 0 bytes

end RecordFilter.Text
