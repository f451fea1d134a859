import EdgeGuard.Json.Read

/-!
# `EdgeGuard.Json.Tag`: values that name one of a fixed set of tags

A tag is a string, or an object whose only field is the tag with the value null. The known tags
are given in the order in which a message lists them.
-/

set_option autoImplicit false

namespace EdgeGuard.Json

/-- The meaning of a tag among the known ones. -/
def tagNamed {α : Type} (known : List (String × α)) (tag : String) : Except Mismatch α :=
  match known.lookup tag with
  | some meaning => .ok meaning
  | none => .error (.unknownTag tag (known.map (·.1)))

/-- The meaning of a value that names a tag. -/
def toTag {α : Type} (known : List (String × α)) : Json → Except Mismatch α
  | .str tag => tagNamed known tag
  | .obj [(tag, content)] =>
    match tagNamed known tag, content with
    | .ok meaning, .null => .ok meaning
    | .ok _, content => .error (.kind content.found .unit)
    | .error cause, _ => .error cause
  | .obj _ => .error .notOneField
  | value => .error (.kind value.found .tag)

/-- A mismatch as the error of a reader. -/
def liftMismatch {α : Type} : Except Mismatch α → Except ReadError α
  | .ok result => .ok result
  | .error cause => .error (.mismatch cause)

/-- Reads the name of a tag. -/
def tagName {α : Type} (known : List (String × α)) : Reader α := fun cs =>
  match skipSpace cs with
  | '"' :: rest => do
    let (tag, rest) ← string rest
    let meaning ← liftMismatch (tagNamed known tag)
    return (meaning, rest)
  | _ => kindMismatch .tagName cs

/-- Reads null. -/
def unit : Reader Unit := fun cs =>
  match skipSpace cs with
  | 'n' :: rest => do return ((), ← word ['u', 'l', 'l'] rest)
  | _ => kindMismatch .unit cs

/-- Reads a value that names a tag. -/
def tag {α : Type} (known : List (String × α)) : Reader α := fun cs =>
  match skipSpace cs with
  | [] => .error .truncated
  | '"' :: _ => tagName known cs
  | '\x7b' :: rest => do
    let (meaning, rest) ← tagName known rest
    let rest ← colon rest
    let (_, rest) ← unit rest
    match skipSpace rest with
    | [] => .error .truncated
    | '\x7d' :: rest => .ok (meaning, rest)
    | _ => .error .malformed
  | _ => .error .malformed

end EdgeGuard.Json
