import RecordFilter.Json.Token

/-!
# Documents

A `Document` is a text as it was written: fields keep their order and may repeat, and what has no
value (`unreadable`) does no harm until it is asked for.  Text nested 128 levels deep or more has
no value.  `Document.ofText?` reads one, `Document.value?` takes its free-form value, in which
the later of two fields with one key counts.
-/

namespace RecordFilter.Json

/-- A text as it was written. -/
inductive Document where
  | unreadable
  | null
  | bool (b : Bool)
  | number (n : Number)
  | string (s : String)
  | array (items : List Document)
  | object (fields : List (Option String × Document))

namespace Document

/-- Brackets may nest so deep. -/
def depthLimit : Nat := 128

/-- An open bracket; what was read in it stands last first. -/
inductive Frame where
  | array (back : List Document)
  | object (back : List (Option String × Document))
  /-- An object in which a key waits for its value. -/
  | field (back : List (Option String × Document)) (key : Option String)

/-- What may come next. -/
inductive Expect where
  /-- A value. -/
  | value
  /-- The first item of an array, or its end. -/
  | itemOrEnd
  /-- The first key of an object, or its end. -/
  | keyOrEnd
  /-- A key. -/
  | key
  /-- The colon after a key. -/
  | colon
  /-- A comma, or the end of what is open; with nothing open, nothing. -/
  | separator

/-- The open brackets, the innermost first, what may come next, and the finished document. -/
structure Builder where
  stack : List Frame
  expect : Expect
  result : Option Document

/-- Before the first token. -/
def Builder.start : Builder := ⟨[], .value, none⟩

/-- Puts a finished value where it belongs. -/
def Builder.finish (stack : List Frame) (v : Document) : Option Builder :=
  match stack with
  | [] => some ⟨[], .separator, some v⟩
  | .array back :: rest => some ⟨.array (v :: back) :: rest, .separator, none⟩
  | .field back key :: rest => some ⟨.object ((key, v) :: back) :: rest, .separator, none⟩
  | .object _ :: _ => none

/-- Closes a bracket at this depth. -/
def closed (depth : Nat) (v : Document) : Document :=
  if depthLimit ≤ depth then .unreadable else v

/-- The start of a value. -/
def Builder.value (stack : List Frame) : Token → Option Builder
  | .null => Builder.finish stack .null
  | .bool b => Builder.finish stack (.bool b)
  | .number n => Builder.finish stack (n.elim .unreadable .number)
  | .string s => Builder.finish stack (s.elim .unreadable .string)
  | .openArray => some ⟨.array [] :: stack, .itemOrEnd, none⟩
  | .openObject => some ⟨.object [] :: stack, .keyOrEnd, none⟩
  | _ => none

/-- One token more. -/
def Builder.step (b : Builder) (t : Token) : Option Builder :=
  match b.expect, t, b.stack with
  | .value, t, stack => Builder.value stack t
  | .itemOrEnd, .closeArray, .array back :: rest | .separator, .closeArray, .array back :: rest =>
    Builder.finish rest (closed (rest.length + 1) (.array back.reverse))
  | .itemOrEnd, t, stack => Builder.value stack t
  | .keyOrEnd, .closeObject, .object back :: rest
  | .separator, .closeObject, .object back :: rest =>
    Builder.finish rest (closed (rest.length + 1) (.object back.reverse))
  | .keyOrEnd, .string s, .object back :: rest | .key, .string s, .object back :: rest =>
    some ⟨.field back s :: rest, .colon, none⟩
  | .colon, .colon, stack => some ⟨stack, .value, none⟩
  | .separator, .comma, .array back :: rest => some ⟨.array back :: rest, .value, none⟩
  | .separator, .comma, .object back :: rest => some ⟨.object back :: rest, .key, none⟩
  | _, _, _ => none

/-- The document of a list of tokens. -/
def ofTokens? (ts : List Token) : Option Document := do
  (← ts.foldlM Builder.step .start).result

/-- The document of a text. -/
def ofText? (s : String) : Option Document := do ofTokens? (← Token.scan s.toList)

mutual

/-- The free-form value. -/
def value? : Document → Option Json
  | .unreadable => none
  | .null => some .null
  | .bool b => some (.bool b)
  | .number n => some (.number n)
  | .string s => some (.string s)
  | .array items => (values? items).map .array
  | .object fields => (fieldValues? fields).map .ofFields

/-- The values of a list. -/
def values? : List Document → Option (List Json)
  | [] => some []
  | d :: ds => do return (← value? d) :: (← values? ds)

/-- The values of fields, all of whose keys must be readable. -/
def fieldValues? : List (Option String × Document) → Option (List (String × Json))
  | [] => some []
  | (k, d) :: rest => do return (← k, ← value? d) :: (← fieldValues? rest)

end

mutual

/-- The document that a free-form value is written as. -/
def ofValue : Json → Document
  | .null => .null
  | .bool b => .bool b
  | .number n => .number n
  | .string s => .string s
  | .array items => .array (ofValues items)
  | .object fields => .object (ofFields fields)

/-- The documents of a list. -/
def ofValues : List Json → List Document
  | [] => []
  | v :: vs => ofValue v :: ofValues vs

/-- The documents of fields. -/
def ofFields : List (String × Json) → List (Option String × Document)
  | [] => []
  | (k, v) :: rest => (some k, ofValue v) :: ofFields rest

end

end Document

/-- The free-form value of a text. -/
def ofText? (s : String) : Option Json := do (← Document.ofText? s).value?

end RecordFilter.Json
