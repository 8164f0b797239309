import RecordFilter.Text.Digits
import RecordFilter.Text.Invisible

/-!
# Quoted text

The form in which a text operand is shown: between double quotes, with the quote, the backslash
and every character that could not be seen escaped.
-/

namespace RecordFilter.Text

/-- How one character stands inside quotes. -/
def quotedChar (c : Char) : List Char :=
  if c = '\x00' then ['\\', '0']
  else if c = '\t' then ['\\', 't']
  else if c = '\r' then ['\\', 'r']
  else if c = '\n' then ['\\', 'n']
  else if c = '"' then ['\\', '"']
  else if c = '\\' then ['\\', '\\']
  else if isInvisible c then ['\\', 'u', '\x7b'] ++ hex c.toNat ++ ['\x7d']
  else [c]

/-- A text between double quotes. -/
def quoted (s : String) : String :=
  String.ofList ('"' :: s.toList.flatMap quotedChar ++ ['"'])

end RecordFilter.Text
