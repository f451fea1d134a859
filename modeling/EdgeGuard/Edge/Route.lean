import EdgeGuard.Edge.Basic
import EdgeGuard.Eval.Basic
import EdgeGuard.Expr.Validity

/-!
# `EdgeGuard.Edge.Route`: which edges can be followed

An unconditional edge can always be followed. A conditional one can when its condition is there,
is readable and well formed, and decides true.

* `Edge.passes` asks one edge, `Edge.select` asks the edges of a node in their order.
-/

set_option autoImplicit false

namespace EdgeGuard.Edge

variable {σ : Type}

/-- Whether the condition of an edge, in its stored form, lets it pass. -/
def passesWith (context : Context σ) (edge : Edge) (raw : Json) (start : Run σ) : Bool × Run σ :=
  let expr := Expr.ofJson raw
  let run := start.noteAll (Expr.decodeNotices raw)
  match expr.check with
  | .error problem => (false, run.note (.invalidCondition edge.id problem))
  | .ok () =>
    let (passes, run) := expr.evaluate context run
    (passes, run.note (.decidedEdge edge.id edge.source edge.target passes))

/-- Whether an edge can be followed. -/
def passes (context : Context σ) (edge : Edge) (start : Run σ) : Bool × Run σ :=
  if edge.isConditional then
    match edge.conditionJson? with
    | .error _ => (false, start.note (.unreadableCondition edge.id))
    | .ok none => (false, start.note (.missingCondition edge.id))
    | .ok (some raw) => passesWith context edge raw start
  else (true, start)

/-- The edges of a list that lead away from a node and can be followed, in their order. -/
def select (context : Context σ) (source : String) : List Edge → Run σ → List Edge × Run σ
  | [], run => ([], run)
  | edge :: rest, run =>
    if edge.source = source then
      -- The edges are asked in their order, each in the run that the ones before it left.
      let (passes, run) := edge.passes context run
      let (selected, run) := select context source rest run
      (if passes then edge :: selected else selected, run)
    else select context source rest run

/-- An edge as a line of output. -/
def line (edge : Edge) : String :=
  edge.source ++ " -> " ++ edge.target ++ " (" ++ edge.id ++ ")"

end EdgeGuard.Edge
