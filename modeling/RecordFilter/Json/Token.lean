import RecordFilter.Json.Number

/-!
# Tokens of data text

`Token.scan` cuts a text into tokens, one character after the other.  A string may hold half of a
surrogate pair, and a number may be too large: such a token is kept without a value, for it does
no harm where the value is not asked for.
-/

namespace RecordFilter.Json

/-- A token. -/
inductive Token where
  | openArray | closeArray | openObject | closeObject | comma | colon
  | null
  | bool (b : Bool)
  | number (n : Option Number)
  | string (s : Option String)

namespace Token

/-- Where an escape in a string stands. -/
inductive Escape where
  | none
  | started
  /-- `left` digits of a code unit are still to come. -/
  | unit (left value : Nat)

/-- The part of a string read so far. -/
structure Quote where
  /-- The characters, the last one first. -/
  back : List Char
  /-- Whether every surrogate so far has its partner. -/
  sound : Bool
  /-- The first half of a surrogate pair that waits for its second half. -/
  pending : Option Nat
  escape : Escape

/-- The start of a string. -/
def Quote.start : Quote := ⟨[], true, none, .none⟩

/-- Adds a character that is not part of a pair. -/
def Quote.push (q : Quote) (c : Char) : Quote :=
  { back := c :: q.back, sound := q.sound && q.pending.isNone, pending := none, escape := .none }

/-- Adds an escaped code unit. -/
def Quote.pushUnit (q : Quote) (n : Nat) : Quote :=
  if 0xDC00 ≤ n ∧ n < 0xE000 then
    match q.pending with
    | some high =>
      { q with
        back := Char.ofNat (0x10000 + (high - 0xD800) * 0x400 + (n - 0xDC00)) :: q.back
        pending := none, escape := .none }
    | none => { q with sound := false, escape := .none }
  else if 0xD800 ≤ n ∧ n < 0xDC00 then
    { q with sound := q.sound && q.pending.isNone, pending := some n, escape := .none }
  else q.push (Char.ofNat n)

/-- The value of the string, if it has one. -/
def Quote.value (q : Quote) : Option String :=
  if q.sound && q.pending.isNone then some (String.ofList q.back.reverse) else none

/-- The character that a one-letter escape stands for. -/
def shortEscape? (c : Char) : Option Char :=
  if c = '"' ∨ c = '\\' ∨ c = '/' then some c
  else if c = 'b' then some '\x08'
  else if c = 'f' then some '\x0c'
  else if c = 'n' then some '\n'
  else if c = 'r' then some '\r'
  else if c = 't' then some '\t'
  else none

/-- The value of a hexadecimal digit. -/
def hexDigit? (c : Char) : Option Nat :=
  if '0' ≤ c ∧ c ≤ '9' then some (c.toNat - '0'.toNat)
  else if 'a' ≤ c ∧ c ≤ 'f' then some (c.toNat - 'a'.toNat + 10)
  else if 'A' ≤ c ∧ c ≤ 'F' then some (c.toNat - 'A'.toNat + 10)
  else none

/-- What is being read. -/
inductive Scanner where
  | between
  /-- A name or a number, the last character first. -/
  | word (back : List Char)
  | quote (q : Quote)

/-- The token that a word is. -/
def ofWord (cs : List Char) : Option Token :=
  if cs = ['n', 'u', 'l', 'l'] then some null
  else if cs = ['t', 'r', 'u', 'e'] then some (bool true)
  else if cs = ['f', 'a', 'l', 's', 'e'] then some (bool false)
  else match Number.read cs with
    | some (.value n) => some (number (some n))
    | some .outOfRange => some (number Option.none)
    | Option.none => Option.none

/-- The blanks of the format. -/
def isSpace (c : Char) : Bool := c == ' ' || c == '\n' || c == '\t' || c == '\r'

/-- The token that a character is by itself. -/
def ofPunctuation? (c : Char) : Option Token :=
  if c = '[' then some openArray
  else if c = ']' then some closeArray
  else if c = '\x7b' then some openObject
  else if c = '\x7d' then some closeObject
  else if c = ',' then some comma
  else if c = ':' then some colon
  else Option.none

/-- The scanner and the finished tokens, the last one first, after one more character. -/
def step : Scanner × List Token → Char → Option (Scanner × List Token)
  | (.quote q, done), c =>
    match q.escape with
    | .none =>
      if c = '"' then some (.between, string q.value :: done)
      else if c = '\\' then some (.quote { q with escape := .started }, done)
      else if c.toNat < 0x20 then Option.none
      else some (.quote (q.push c), done)
    | .started =>
      if c = 'u' then some (.quote { q with escape := .unit 4 0 }, done)
      else (shortEscape? c).map fun c => (.quote (q.push c), done)
    | .unit left value =>
      (hexDigit? c).map fun d =>
        if left ≤ 1 then (.quote (q.pushUnit (value * 16 + d)), done)
        else (.quote { q with escape := .unit (left - 1) (value * 16 + d) }, done)
  | (.word back, done), c =>
    if isSpace c then (ofWord back.reverse).map fun t => (.between, t :: done)
    else if c = '"' then (ofWord back.reverse).map fun t => (.quote .start, t :: done)
    else match ofPunctuation? c with
      | some p => (ofWord back.reverse).map fun t => (.between, p :: t :: done)
      | Option.none => some (.word (c :: back), done)
  | (.between, done), c =>
    if isSpace c then some (.between, done)
    else if c = '"' then some (.quote .start, done)
    else match ofPunctuation? c with
      | some p => some (.between, p :: done)
      | Option.none => some (.word [c], done)

/-- The tokens of a text. -/
def scan (cs : List Char) : Option (List Token) := do
  match ← cs.foldlM step (.between, []) with
  | (.between, done) => return done.reverse
  | (.word back, done) => return ((← ofWord back.reverse) :: done).reverse
  | (.quote _, _) => Option.none

end Token

end RecordFilter.Json
