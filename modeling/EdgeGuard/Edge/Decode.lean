import EdgeGuard.Edge.Basic
import EdgeGuard.Json.Skip

/-!
# `EdgeGuard.Edge.Decode`: edges from stored values and from text

An edge is an object with the fields `id`, `source`, `target`, `label`, `isConditional` and
`conditionExpression`, or an array of these in this order. The last three may be missing. Fields
with other names are passed over.

Fields are taken in the order in which they stand, and the first fault is reported; that a field
is missing is found at the end. An edge is collected in a `Draft`, whose fields are filled one
after the other.

* `Edge.ofJson` decodes a value, `Edge.reader` reads a text.

Both stand for what serde derives from the declaration of an edge. What they take to be its
behaviour is said at `Edge.reader`.
-/

set_option autoImplicit false

namespace EdgeGuard

/-- The fields of an edge. -/
inductive EdgeField where
  | id
  | source
  | target
  | label
  | isConditional
  | condition
deriving DecidableEq

namespace EdgeField

/-- The fields in the order of an array. -/
def all : List EdgeField := [.id, .source, .target, .label, .isConditional, .condition]

/-- The name of a field. -/
def name : EdgeField → String
  | .id => "id"
  | .source => "source"
  | .target => "target"
  | .label => "label"
  | .isConditional => "isConditional"
  | .condition => "conditionExpression"

/-- The field with a name. -/
def ofName? (name : String) : Option EdgeField := all.find? fun field => field.name == name

end EdgeField

namespace Edge

/-- An edge some of whose fields are known. -/
structure Draft where
  id : Option String
  source : Option String
  target : Option String
  label : Option (Option String)
  isConditional : Option Bool
  condition : Option (Option String)

namespace Draft

/-- The edge of which nothing is known. -/
def blank : Draft := ⟨none, none, none, none, none, none⟩

/-- Whether a field is known. -/
def has (draft : Draft) : EdgeField → Bool
  | .id => draft.id.isSome
  | .source => draft.source.isSome
  | .target => draft.target.isSome
  | .label => draft.label.isSome
  | .isConditional => draft.isConditional.isSome
  | .condition => draft.condition.isSome

/-- The edge, once the fields that have no usual value are known. Of those that are missing, the
first in the order of an array is reported. -/
def finish (draft : Draft) (missing : EdgeField → Json.Mismatch) : Except Json.Mismatch Edge :=
  match draft.id, draft.source, draft.target with
  | none, _, _ => .error (missing .id)
  | _, none, _ => .error (missing .source)
  | _, _, none => .error (missing .target)
  | some id, some source, some target =>
    .ok ⟨id, source, target, draft.label.getD none, draft.isConditional.getD false,
      draft.condition.getD none⟩

end Draft

/-- A field without which an object is no edge. -/
def missingField (field : EdgeField) : Json.Mismatch := .missingField field.name

/-- A field without which an array is no edge. The array ended before it. -/
def arrayTooShort : EdgeField → Json.Mismatch
  | .id => .tooFewItems 0
  | .source => .tooFewItems 1
  | _ => .tooFewItems 2

/-! ### From a value -/

/-- The text of a string. -/
def textOf : Json → Except Json.Mismatch String
  | .str text => .ok text
  | value => .error (.kind value.found .string)

/-- The text of a string, or none for null. -/
def optionalTextOf : Json → Except Json.Mismatch (Option String)
  | .null => .ok none
  | value => (textOf value).map some

/-- The truth value that a value is. -/
def boolOf : Json → Except Json.Mismatch Bool
  | .bool value => .ok value
  | value => .error (.kind value.found .boolean)

/-- The draft with a field taken from a value. -/
def Draft.set (draft : Draft) (field : EdgeField) (value : Json) : Except Json.Mismatch Draft :=
  match field with
  | .id => do return { draft with id := some (← textOf value) }
  | .source => do return { draft with source := some (← textOf value) }
  | .target => do return { draft with target := some (← textOf value) }
  | .label => do return { draft with label := some (← optionalTextOf value) }
  | .isConditional => do return { draft with isConditional := some (← boolOf value) }
  | .condition => do return { draft with condition := some (← optionalTextOf value) }

/-- The draft with the fields of an object taken in their order. -/
def Draft.setAll (draft : Draft) : List (String × Json) → Except Json.Mismatch Draft
  | [] => .ok draft
  | (name, value) :: rest => do
    match EdgeField.ofName? name with
    | some field => (← draft.set field value).setAll rest
    | none => draft.setAll rest

/-- The draft with the items of an array taken for fields in their order. Items behind the last
field are left. -/
def Draft.setItems (draft : Draft) : List EdgeField → List Json → Except Json.Mismatch Draft
  | field :: fields, value :: rest => do (← draft.set field value).setItems fields rest
  | _, _ => .ok draft

/-- The edge that a value stands for. -/
def ofJson : Json → Except Json.Mismatch Edge
  | .obj fields => do (← Draft.blank.setAll fields).finish missingField
  | .arr items => do
    let edge ← (← Draft.blank.setItems EdgeField.all items).finish arrayTooShort
    if items.length ≤ EdgeField.all.length then return edge
    else .error (.tooManyItems items.length)
  | value => .error (.kind value.found .edge)

/-- The edges of which a value is the list. -/
def listOfJson : Json → Except Json.Mismatch (List Edge)
  | .arr items => items.mapM ofJson
  | value => .error (.kind value.found .sequence)

/-! ### From text -/

/-- A mismatch as the error of a reader. -/
def ofMismatch {α : Type} : Except Json.Mismatch α → Except Json.ReadError α
  | .ok result => .ok result
  | .error cause => .error (.mismatch cause)

/-- Reads the value of a field into a draft. -/
def Draft.read (draft : Draft) (field : EdgeField) : Json.Reader Draft := fun cs =>
  match field with
  | .id => do
    let (text, rest) ← Json.stringText cs
    return ({ draft with id := some text }, rest)
  | .source => do
    let (text, rest) ← Json.stringText cs
    return ({ draft with source := some text }, rest)
  | .target => do
    let (text, rest) ← Json.stringText cs
    return ({ draft with target := some text }, rest)
  | .label => do
    let (text, rest) ← Json.optionalText cs
    return ({ draft with label := some text }, rest)
  | .isConditional => do
    let (value, rest) ← Json.boolText cs
    return ({ draft with isConditional := some value }, rest)
  | .condition => do
    let (text, rest) ← Json.optionalText cs
    return ({ draft with condition := some text }, rest)

/-- Reads a name, a colon and a value into a draft, where the quote of the name is behind. A name
that was there before is refused before its value is read. -/
def Draft.readField (draft : Draft) : Json.Reader Draft := fun cs => do
  let (name, rest) ← Json.string cs
  match EdgeField.ofName? name with
  | some field =>
    -- A repeated name is refused before the colon behind it is looked for.
    if draft.has field then .error (.mismatch (.duplicateField name))
    let rest ← Json.colon rest
    draft.read field rest
  | none =>
    let rest ← Json.colon rest
    let (_, rest) ← Json.skip rest
    return (draft, rest)

/-- Reads the fields of an object into a draft, behind the opening quote of a name. -/
def Draft.readFields (draft : Draft) : (fuel : Nat) → Json.Reader Draft
  | 0, _ => .error .malformed
  | fuel + 1, cs => do
    let (draft, rest) ← draft.readField cs
    let (more, rest) ← Json.nextField rest
    if more then draft.readFields fuel rest else return (draft, rest)

/-- Reads an object behind its opening brace. -/
def readObject : Json.Reader Edge := fun cs => do
  let (more, rest) ← Json.firstField cs
  let (draft, rest) ←
    if more then Draft.blank.readFields (rest.length + 1) rest else .ok (Draft.blank, rest)
  return (← ofMismatch (draft.finish missingField), rest)

/-- Reads the items of an array into a draft, up to the closing bracket or behind the last
field. Says whether the bracket was read. -/
def Draft.readItems (draft : Draft) (first : Bool) :
    List EdgeField → List Char → Except Json.ReadError (Draft × Bool × List Char)
  | [], cs => .ok (draft, false, cs)
  | field :: fields, cs =>
    match Json.skipSpace cs with
    | [] => .error .truncated
    | ']' :: rest => .ok (draft, true, rest)
    | c :: rest =>
      if first then do
        let (draft, rest) ← draft.read field (c :: rest)
        draft.readItems false fields rest
      else if c = ',' then
        match Json.skipSpace rest with
        | [] => .error .truncated
        | ']' :: _ => .error .malformed
        | rest => do
          let (draft, rest) ← draft.read field rest
          draft.readItems false fields rest
      else .error .malformed

/-- Reads an array behind its opening bracket. Nothing may follow the last field. -/
def readArray : Json.Reader Edge := fun cs => do
  let (draft, closed, rest) ← Draft.blank.readItems true EdgeField.all cs
  -- That fields are missing is found before the end of the array is.
  let edge ← ofMismatch (draft.finish arrayTooShort)
  if closed then return (edge, rest)
  match Json.skipSpace rest with
  | [] => .error .truncated
  | ']' :: rest => .ok (edge, rest)
  | _ => .error .malformed

/-- Reads an edge.

This stands for the decoder that serde derives, over the readers of serde_json, and assumes of it
the following.

* An edge is an object, or an array whose items are the six fields in the order of their
  declaration. An array may end early, but not before the third field, and has no seventh item.
* In an object the fields may have any order. A name that belongs to no field is passed over
  together with its value, of which only the grammar is checked (`Json.skip`), and a field that
  occurs again is refused.
* Without a value of their own the label and the condition are absent, and the edge is
  unconditional. For a label or a condition null counts as absent.
* Nothing is converted: a string is read from a string only, a truth value from a truth value. -/
def reader : Json.Reader Edge := fun cs =>
  match Json.skipSpace cs with
  | '\x7b' :: rest => readObject rest
  | '[' :: rest => readArray rest
  | _ => Json.kindMismatch .edge cs

/-- Reads a list of edges. -/
def listReader : Json.Reader (List Edge) := fun cs =>
  match Json.skipSpace cs with
  | '[' :: rest => Json.items reader rest
  | _ => Json.kindMismatch .sequence cs

end Edge

end EdgeGuard
