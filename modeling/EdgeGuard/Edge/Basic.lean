import EdgeGuard.Expr.Decode
import EdgeGuard.Json.Read
import EdgeGuard.Text.Blank

/-!
# `EdgeGuard.Edge.Basic`: the edges of a flow graph

An edge leads from a source node to a target node. A conditional edge carries its condition as
the stored text of a tree.
-/

set_option autoImplicit false

namespace EdgeGuard

/-- An edge of a flow graph. -/
structure Edge where
  id : String
  source : String
  target : String
  label : Option String
  isConditional : Bool
  /-- The stored text of the condition. -/
  condition : Option String
deriving DecidableEq

namespace Edge

/-- The unconditional edge between two nodes. -/
def between (id source target : String) : Edge := ⟨id, source, target, none, false, none⟩

/-- The edge with a condition attached.

Attaching has no way to fail, although writing a value to a text in general has one: a key that is
no text, a value that refuses to be written, or an output that cannot take more. None of these
occurs here. The stored form of a tree is a JSON value (`Expr.toJson`), whose keys are texts and
whose doubles are finite, and it is written to memory. -/
def withCondition (edge : Edge) (expr : Expr) : Edge :=
  { edge with condition := some expr.encode, isConditional := true }

/-- The text of the condition without blanks around it, if anything is left. -/
def conditionText? (edge : Edge) : Option String :=
  match edge.condition with
  | none => none
  | some text => if Text.trim text = "" then none else some (Text.trim text)

/-- The stored value of the condition, if the edge has one. -/
def conditionJson? (edge : Edge) : Except Json.ReadError (Option Json) :=
  match edge.conditionText? with
  | none => .ok none
  | some text => (Json.read text).map some

/-- The condition, if the edge has one. -/
def condition? (edge : Edge) : Except Json.ReadError (Option Expr) :=
  edge.conditionJson?.map fun raw => raw.map .ofJson

/-- A field that is written only when there is a value for it. -/
def optionalField (name : String) : Option String → List (String × Json)
  | some text => [(name, .str text)]
  | none => []

/-- The stored value of an edge. -/
def toJson (edge : Edge) : Json :=
  .obj ([("id", .str edge.id), ("source", .str edge.source), ("target", .str edge.target)]
    ++ optionalField "label" edge.label
    ++ [("isConditional", .bool edge.isConditional)]
    ++ optionalField "conditionExpression" edge.condition)

/-- The stored text of an edge. -/
def encode (edge : Edge) : String := edge.toJson.compact

end Edge

end EdgeGuard
