import EdgeGuard.Json.Basic

/-!
# `EdgeGuard.Json.Write`: the compact text of a JSON value

The text has no spaces. Fields are written in the order in which the object holds them.
Strings escape the quote, the backslash and the control characters below space, with the
short form where there is one.

`Json.write value rest` is the text of the value followed by `rest`; this is the form that
a reader undoes, one value at a time.
-/

set_option autoImplicit false

namespace EdgeGuard.Json

/-- The lower-case hexadecimal digit of a number below sixteen. -/
def hexDigit (n : Nat) : Char := Nat.digitChar n

/-- A character as it stands inside a written string. -/
def escape (c : Char) : List Char :=
  if c = '"' then ['\\', '"']
  else if c = '\\' then ['\\', '\\']
  else if c = '\x08' then ['\\', 'b']
  else if c = '\x0c' then ['\\', 'f']
  else if c = '\n' then ['\\', 'n']
  else if c = '\r' then ['\\', 'r']
  else if c = '\t' then ['\\', 't']
  else if c.toNat < 0x20 then
    ['\\', 'u', '0', '0', hexDigit (c.toNat / 16), hexDigit (c.toNat % 16)]
  else [c]

/-- A string in quotes, followed by `rest`. -/
def writeString (text : String) (rest : List Char) : List Char :=
  '"' :: (text.toList.flatMap escape ++ '"' :: rest)

mutual

/-- The compact text of a value, followed by `rest`. -/
def write : Json → List Char → List Char
  | .null, rest => 'n' :: 'u' :: 'l' :: 'l' :: rest
  | .bool true, rest => 't' :: 'r' :: 'u' :: 'e' :: rest
  | .bool false, rest => 'f' :: 'a' :: 'l' :: 's' :: 'e' :: rest
  | .num value, rest => value.chars ++ rest
  | .str text, rest => writeString text rest
  | .arr [], rest => '[' :: ']' :: rest
  | .arr (value :: more), rest => '[' :: write value (writeItems more (']' :: rest))
  | .obj [], rest => '\x7b' :: '\x7d' :: rest
  | .obj ((name, value) :: more), rest =>
    '\x7b' :: writeString name (':' :: write value (writeFields more ('\x7d' :: rest)))

/-- The items of an array after the first, each behind a comma. -/
def writeItems : List Json → List Char → List Char
  | [], rest => rest
  | value :: more, rest => ',' :: write value (writeItems more rest)

/-- The fields of an object after the first, each behind a comma. -/
def writeFields : List (String × Json) → List Char → List Char
  | [], rest => rest
  | (name, value) :: more, rest =>
    ',' :: writeString name (':' :: write value (writeFields more rest))

end

/-- The compact text of a value. -/
def compact (value : Json) : String := String.ofList (value.write [])

end EdgeGuard.Json
