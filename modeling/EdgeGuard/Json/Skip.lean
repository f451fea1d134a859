import EdgeGuard.Json.Read

/-!
# `EdgeGuard.Json.Skip`: passing over JSON text

A typed reader passes over the values of names it does not know. Only the grammar of such a
value is checked: its numbers may be out of range, its strings may hold half a surrogate pair,
and it may nest as deep as it likes. A number that ends too early counts as malformed here.
-/

set_option autoImplicit false

namespace EdgeGuard.Json

/-- Where a reader that passes over a string stands. -/
inductive SkipPlace where
  | plain
  | escape
  /-- Before `missing + 1` hexadecimal digits. -/
  | unit (missing : Nat)

/-- Passes over a string behind its opening quote. -/
def skipStringBody (place : SkipPlace) : List Char → Except ReadError (List Char)
  | [] => .error .truncated
  | c :: cs =>
    match place with
    | .plain =>
      if c = '"' then .ok cs
      else if c = '\\' then skipStringBody .escape cs
      else if c.toNat < 0x20 then .error .malformed
      else skipStringBody .plain cs
    | .escape =>
      if (shortEscape? c).isSome then skipStringBody .plain cs
      else if c ≠ 'u' then .error .malformed
      else if bytesAhead 4 cs then skipStringBody (.unit 3) cs
      else .error .truncated
    | .unit missing =>
      if (hexValue? c).isNone then .error .malformed
      else
        match missing with
        | missing + 1 => skipStringBody (.unit missing) cs
        | 0 => skipStringBody .plain cs

/-- Passes over a string behind its opening quote. -/
def skipString : Reader Unit := fun cs => do return ((), ← skipStringBody .plain cs)

/-- Passes over one digit or more. -/
def skipDigits (cs : List Char) : Except ReadError (List Char) :=
  match cs with
  | c :: _ => if isDigit c then .ok (cs.dropWhile isDigit) else .error .malformed
  | [] => .error .malformed

/-- Passes over the exponent of a number, if its mark is ahead. -/
def skipExponent (cs : List Char) : Except ReadError (List Char) :=
  match cs with
  | c :: rest =>
    if c = 'e' ∨ c = 'E' then
      match rest with
      | d :: more => if d = '+' ∨ d = '-' then skipDigits more else skipDigits rest
      | [] => .error .malformed
    else .ok cs
  | [] => .ok cs

/-- Passes over a number without a sign. -/
def skipMagnitude (cs : List Char) : Except ReadError (List Char) := do
  let rest ← skipDigits cs
  -- Zero is the only number that starts with zero.
  if cs.head? = some '0' ∧ (cs.drop 1).head?.any isDigit then .error .malformed
  let rest ←
    match rest with
    | '.' :: places => skipDigits places
    | _ => .ok rest
  skipExponent rest

/-- Passes over a value that nests at most `depth` levels. -/
def skipValue : (depth : Nat) → Reader Unit
  | depth, cs =>
    match skipSpace cs with
    | [] => .error .truncated
    | 'n' :: rest => do return ((), ← word ['u', 'l', 'l'] rest)
    | 't' :: rest => do return ((), ← word ['r', 'u', 'e'] rest)
    | 'f' :: rest => do return ((), ← word ['a', 'l', 's', 'e'] rest)
    | '"' :: rest => skipString rest
    | '-' :: rest => do return ((), ← skipMagnitude rest)
    | '[' :: rest =>
      match depth with
      | 0 => .error .malformed
      | depth + 1 => do
        let (_, rest) ← items (skipValue depth) rest
        return ((), rest)
    | '\x7b' :: rest =>
      match depth with
      | 0 => .error .malformed
      | depth + 1 => do
        let (_, rest) ← fields skipString (skipValue depth) rest
        return ((), rest)
    | c :: rest => if isDigit c then do return ((), ← skipMagnitude (c :: rest)) else .error .malformed

/-- Passes over a value. A text nests no deeper than it has characters. -/
def skip : Reader Unit := fun cs => skipValue cs.length cs

end EdgeGuard.Json
