/-
  Quoted text, as it is shown in descriptions: in double quotes, with escapes
  for the quote, the backslash, the line and tab characters, and for every
  hidden character.
-/
import DataBinding.Text.Hidden

namespace DataBinding.Text

/-- A number in hexadecimal. -/
def hex (n : Nat) : List Char :=
  Nat.toDigits 16 n

/-- A character in quoted text. -/
def quotedChar (c : Char) : List Char :=
  if c = '"' then ['\\', '"']
  else if c = '\\' then ['\\', '\\']
  else if c = '\n' then ['\\', 'n']
  else if c = '\r' then ['\\', 'r']
  else if c = '\t' then ['\\', 't']
  else if c.toNat = 0 then ['\\', '0']
  else if isHidden c then '\\' :: 'u' :: '\x7b' :: hex c.toNat ++ ['\x7d']
  else [c]

/-- A text in double quotes, with escapes. -/
def quoted (s : String) : String :=
  String.ofList ('"' :: s.toList.flatMap quotedChar ++ ['"'])

/-- Quoted texts in brackets. -/
def quotedList (items : List String) : String :=
  "[" ++ ", ".intercalate (items.map quoted) ++ "]"

end DataBinding.Text
