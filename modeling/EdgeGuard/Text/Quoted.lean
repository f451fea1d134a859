import EdgeGuard.Text.Invisible

/-!
# `EdgeGuard.Text.Quoted`: a text in quotes, as messages show it

Messages show a text between double quotes. The quote, the backslash, tab, line feed,
carriage return and the null character are written with a backslash, and invisible
characters as their code point in braces.
-/

set_option autoImplicit false

namespace EdgeGuard.Text

/-- A code point in hexadecimal between braces. -/
def codePoint (c : Char) : List Char :=
  '\\' :: 'u' :: '\x7b' :: (Nat.toDigits 16 c.toNat ++ ['\x7d'])

/-- A character as it stands inside a quoted text. -/
def quotedChar (c : Char) : List Char :=
  if c = '"' then ['\\', '"']
  else if c = '\\' then ['\\', '\\']
  else if c = '\x00' then ['\\', '0']
  else if c = '\t' then ['\\', 't']
  else if c = '\n' then ['\\', 'n']
  else if c = '\r' then ['\\', 'r']
  else if 0x20 ≤ c.toNat && c.toNat < 0x7f then [c]
  else if isInvisible c then codePoint c
  else [c]

/-- A text in quotes. -/
def quoted (text : String) : String :=
  String.ofList ('"' :: (text.toList.flatMap quotedChar ++ ['"']))

/-- Several quoted texts between brackets, with a comma and a space between them. -/
def quotedList (texts : List String) : String :=
  "[" ++ ", ".intercalate (texts.map quoted) ++ "]"

end EdgeGuard.Text
