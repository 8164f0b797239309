import RecordFilter.Json.Number

/-!
# Text of data values

The compact text: no spaces, the keys of an object in their order.  In strings the quote, the
backslash and the control characters are escaped, and nothing else is; `asciiText` escapes all
that is not ASCII as well.
-/

namespace RecordFilter.Json

/-- A four-digit escape. -/
def unicodeEscape (n : Nat) : List Char :=
  let ds := Text.hex n
  '\\' :: 'u' :: (List.replicate (4 - ds.length) '0' ++ ds)

/-- How a character stands in a string. -/
def escapedChar (c : Char) : List Char :=
  if c = '"' then ['\\', '"']
  else if c = '\\' then ['\\', '\\']
  else if c = '\x08' then ['\\', 'b']
  else if c = '\x0c' then ['\\', 'f']
  else if c = '\n' then ['\\', 'n']
  else if c = '\r' then ['\\', 'r']
  else if c = '\t' then ['\\', 't']
  else if c.toNat < 0x20 then unicodeEscape c.toNat
  else [c]

/-- How a character stands in a string of ASCII text: beyond 16 bits as two surrogates. -/
def asciiChar (c : Char) : List Char :=
  let n := c.toNat
  if n < 0x7F then escapedChar c
  else if n < 0x10000 then unicodeEscape n
  else unicodeEscape (0xD800 + (n - 0x10000) / 0x400) ++
    unicodeEscape (0xDC00 + (n - 0x10000) % 0x400)

/-- A string between quotes, each character written by `escape`. -/
def stringText (escape : Char → List Char) (s : String) : List Char :=
  '"' :: (s.toList.flatMap escape ++ ['"'])

mutual

/-- The text of a value. -/
def chars (escape : Char → List Char) : Json → List Char
  | null => ['n', 'u', 'l', 'l']
  | bool true => ['t', 'r', 'u', 'e']
  | bool false => ['f', 'a', 'l', 's', 'e']
  | number n => n.text
  | string s => stringText escape s
  | array items => '[' :: itemsChars escape items
  | object fields => '\x7b' :: fieldsChars escape fields

/-- The items of an array and its end. -/
def itemsChars (escape : Char → List Char) : List Json → List Char
  | [] => [']']
  | [v] => chars escape v ++ [']']
  | v :: w :: rest => chars escape v ++ ',' :: itemsChars escape (w :: rest)

/-- The fields of an object and its end. -/
def fieldsChars (escape : Char → List Char) : List (String × Json) → List Char
  | [] => ['\x7d']
  | [(k, v)] => stringText escape k ++ ':' :: chars escape v ++ ['\x7d']
  | (k, v) :: f :: rest =>
    stringText escape k ++ ':' :: chars escape v ++ ',' :: fieldsChars escape (f :: rest)

end

/-- The compact text of a value. -/
def text (v : Json) : String := String.ofList (chars escapedChar v)

/-- The compact text of a value in ASCII. -/
def asciiText (v : Json) : String := String.ofList (chars asciiChar v)

end RecordFilter.Json
