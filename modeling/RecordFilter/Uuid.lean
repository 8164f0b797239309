import RecordFilter.Text.Digits

/-!
# Universally unique identifiers

A `Uuid` is a number of 128 bits.  Its text is 32 hexadecimal digits in five groups; `Uuid.read`
also takes the digits without hyphens, and the grouped form between braces or after `urn:uuid:`.
A refusal says that the text is longer than every form, or names the first character that can
stand in no form, or else says what is wrong with the digits or their groups.
-/

namespace RecordFilter

namespace Uuid

/-- Identifiers have 128 bits. -/
abbrev bound : Nat := 0x100000000000000000000000000000000

end Uuid

/-- A number of 128 bits. -/
structure Uuid where
  value : Nat
  value_lt : value < Uuid.bound
deriving DecidableEq

namespace Uuid

/-- The order of the numbers, which is that of the texts. -/
def compare (a b : Uuid) : Ordering := Ord.compare a.value b.value

/-- The identifier with this number, if it has at most 128 bits. -/
def of? (value : Nat) : Option Uuid :=
  if h : value < bound then some ⟨value, h⟩ else none

/-- The lengths of the groups. -/
def groupLengths : List Nat := [8, 4, 4, 4, 12]

/-- Cuts a list into pieces of the given lengths. -/
def pieces {α : Type} : List Nat → List α → List (List α)
  | [], _ => []
  | n :: ns, xs => xs.take n :: pieces ns (xs.drop n)

/-- The 32 digits. -/
def hexDigits (u : Uuid) : List Char :=
  let ds := Text.hex u.value
  List.replicate (32 - ds.length) '0' ++ ds

/-- Groups of digits with hyphens between. -/
def text (u : Uuid) : List Char := List.intercalate ['-'] (pieces groupLengths u.hexDigits)

/-! ### Reading -/

/-- Why a text or a list of bytes is no identifier.  Places and lengths of texts are in bytes, and
places begin at zero. -/
inductive Fault where
  | character (found : Char) (place : Nat)
  | textLength (found : Nat)
  | groupCount (found : Nat)
  | groupLength (group found : Nat)
  | byteCount (found : Nat)
deriving Repr, DecidableEq

/-- The text of a fault. -/
def Fault.message : Fault → String
  | character found place =>
    "invalid character: found `" ++ String.singleton found ++ "` at " ++ toString place
  | textLength found => s!"invalid length: found {found}"
  | groupCount found => s!"invalid group count: expected 5, found {found}"
  | groupLength group found =>
    "invalid group length in group " ++ toString group ++ ": expected "
      ++ toString (groupLengths.getD group 0) ++ ", found " ++ toString found
  | byteCount found => s!"invalid length: expected 16 bytes, found {found}"

/-- The value of a hexadecimal digit of either case. -/
def hexDigit? (c : Char) : Option Nat :=
  if '0' ≤ c ∧ c ≤ '9' then some (c.toNat - '0'.toNat)
  else if 'a' ≤ c ∧ c ≤ 'f' then some (c.toNat - 'a'.toNat + 10)
  else if 'A' ≤ c ∧ c ≤ 'F' then some (c.toNat - 'A'.toNat + 10)
  else none

/-- The number of a list of hexadecimal digits. -/
def hexNumber? (cs : List Char) : Option Nat :=
  cs.foldlM (fun n c => (hexDigit? c).map (16 * n + ·)) 0

/-- The number of bytes of a text. -/
def byteLength (cs : List Char) : Nat := cs.foldr (fun c n => c.utf8Size + n) 0

/-- Exactly 32 digits. -/
def readSimple (cs : List Char) : Option Uuid :=
  if cs.length = 32 then do of? (← hexNumber? cs) else none

/-- Digits in groups of the proper lengths. -/
def readGroups (cs : List Char) : Option Uuid :=
  let groups := cs.splitOn '-'
  if groups.map List.length = groupLengths then readSimple groups.flatten else none

/-- The mark in front of a name that is an identifier; its letters may be of either case. -/
def urnMark : List Char := "urn:uuid:".toList

/-- What is left of a text without braces or the mark. -/
def unwrap (cs : List Char) : Option (List Char) :=
  match cs with
  | '\x7b' :: rest => if rest.getLast? = some '\x7d' then some rest.dropLast else none
  | cs =>
    if (cs.take urnMark.length).map Char.toLower = urnMark then some (cs.drop urnMark.length)
    else none

/-- The part of a text where its digits stand: the inside, if that has the length of the grouped
form, and otherwise all of it. -/
def body (cs : List Char) : List Char :=
  match unwrap cs with
  | some inner => if byteLength inner = 36 then inner else cs
  | none => cs

/-- The first character that is neither a hyphen nor a digit, with its place in bytes. -/
def strayCharacter (place : Nat) : List Char → Option (Char × Nat)
  | [] => none
  | c :: cs =>
    if c = '-' ∨ (hexDigit? c).isSome then strayCharacter (place + c.utf8Size) cs
    else some (c, place)

/-- The places of the hyphens in digits and hyphens. -/
def hyphens (place : Nat) : List Char → List Nat
  | [] => []
  | c :: cs => if c = '-' then place :: hyphens (place + 1) cs else hyphens (place + 1) cs

/-- What is wrong with five groups: the first hyphen out of place, or else the last group. -/
def misplaced (length : Nat) : List (Nat × Nat × Nat) → Fault
  | [] => .groupLength 4 (length - 24)
  | (group, place, start) :: rest =>
    if place = start + groupLengths.getD group 0 then misplaced length rest
    else .groupLength group (place - start)

/-- The most bytes that an identifier is written with: the grouped form after the mark. -/
def maxLength : Nat := 45

/-- What is wrong with a body that is no identifier.  One longer than every form is not looked
into. -/
def diagnose (cs : List Char) : Fault :=
  let length := byteLength cs
  if maxLength < length then .textLength length
  else match strayCharacter 0 cs with
    | some (c, place) => .character c place
    | none =>
      let places := hyphens 0 cs
      if places = [] then .textLength length
      else if places.length ≠ 4 then .groupCount (places.length + 1)
      else misplaced length (List.zip [0, 1, 2, 3] (List.zip places [0, 9, 14, 19]))

/-- Reads a body of either form. -/
def readBody (cs : List Char) : Option Uuid :=
  if byteLength cs = 32 then readSimple cs
  else if byteLength cs = 36 then readGroups cs
  else none

/-- Reads an identifier.  A refusal speaks of the body alone. -/
def read (cs : List Char) : Except Fault Uuid :=
  match readBody (body cs) with
  | some u => .ok u
  | none => .error (diagnose (body cs))

/-- The identifier of 16 bytes. -/
def ofBytes (bytes : List UInt8) : Except Fault Uuid :=
  if bytes.length = 16 then
    match of? (bytes.foldl (fun n b => 256 * n + b.toNat) 0) with
    | some u => .ok u
    | none => .error (.byteCount bytes.length)
  else .error (.byteCount bytes.length)

end Uuid

end RecordFilter
