import Mustache.Text.Printable

/-!
# Quoted text

A text between double quotes, with backslashes in front of what would not be seen or would end the
quotation.
-/

namespace Mustache.Text

/-- The code point of a character, in hexadecimal between braces. -/
def escapedCodePoint (c : Char) : Text :=
  ['\\', 'u', '{'] ++ Nat.toDigits 16 c.toNat ++ ['}']

/-- A character as it is written between quotes. -/
def quotedChar (c : Char) : Text :=
  if c.toNat = 0 then ['\\', '0']
  else if c = '\t' then ['\\', 't']
  else if c = '\n' then ['\\', 'n']
  else if c = '\r' then ['\\', 'r']
  else if c = '\\' then ['\\', '\\']
  else if c = '"' then ['\\', '"']
  else if isPrintable c then [c]
  else escapedCodePoint c

/-- A text between double quotes. -/
def quoted (t : Text) : Text :=
  '"' :: t.flatMap quotedChar ++ ['"']

end Mustache.Text
