import EdgeGuard.Context.Basic
import EdgeGuard.Eval.Compare
import EdgeGuard.Expr.Basic

/-!
# `EdgeGuard.Eval.Basic`: what a tree decides in a context

A leaf is resolved to a value; what cannot be resolved is null, with a notice. A condition
resolves all its operands from the left before its operator applies, so `and` and `or` never
stop early. A tree that cannot be evaluated decides false, with a notice.

A run carries what evaluation changes: the state of the world, the names of the functions that
were called, and the log.

* `Operand.resolve` gives the value of a leaf.
* `Operator.apply` gives the truth value of an operator over values.
* `Expr.run` evaluates a tree, and `Expr.evaluate` decides it.
-/

set_option autoImplicit false

namespace EdgeGuard

/-- What evaluation changes: the state of the world, the names called, the log. -/
structure Run (σ : Type) where
  world : σ
  calls : List String
  log : List Notice

namespace Run

variable {σ : Type}

/-- The run at its start. -/
def start (world : σ) : Run σ := ⟨world, [], []⟩

/-- The run with a notice added to its log. -/
def note (run : Run σ) (notice : Notice) : Run σ := { run with log := run.log ++ [notice] }

/-- The run with several notices added to its log. -/
def noteAll (run : Run σ) (notices : List Notice) : Run σ := { run with log := run.log ++ notices }

/-- Calls a function by its name and notes the name. -/
def call (run : Run σ) (name : String) (function : Callable σ) : Outcome × Run σ :=
  let (outcome, world) := function run.world
  (outcome, { run with world := world, calls := run.calls ++ [name] })

end Run

/-! ### Leaves -/

namespace Operand

variable {σ : Type}

/-- The value that a call gives. A call that fails or panics gives null, with a notice. -/
def settle (name : String) (run : Run σ) : Outcome → Json × Run σ
  | .value result => (result, run)
  | .failure message => (.null, run.note (.failedFunction name message))
  | .panic => (.null, run.note (.panickedFunction name))

/-- The value of a leaf that names a function. -/
def resolveFunction (context : Context σ) (operand : Operand) (run : Run σ) : Json × Run σ :=
  match operand.name? with
  | none => (.null, run.note (.unnamedFunction operand.value))
  | some name =>
    match context.function? name with
    | none => (.null, run.note (.undefinedFunction name))
    | some function =>
      let (outcome, run) := run.call name function
      settle name run outcome

/-- The value of a leaf that names a variable. -/
def resolveVariable (context : Context σ) (operand : Operand) : Json :=
  ((operand.name?.bind context.lookup).getD .null)

/-- The value of a leaf. -/
def resolve (context : Context σ) (operand : Operand) (run : Run σ) : Json × Run σ :=
  match operand.kind with
  | .constant => (operand.value, run)
  | .variable => (resolveVariable context operand, run)
  | .function => resolveFunction context operand run

end Operand

/-! ### Operators -/

namespace Operator

/-- The first value of an operator that takes one. -/
def single (operator : Operator) : List Json → Except EvalFault Json
  | [] => .error (.missingOperand operator 0)
  | value :: _ => .ok value

/-- The first two values of an operator that takes two. -/
def pair (operator : Operator) : List Json → Except EvalFault (Json × Json)
  | [] => .error (.missingOperand operator 0)
  | [_] => .error (.missingOperand operator 1)
  | left :: right :: _ => .ok (left, right)

/-- The relation that an operator over two values decides. -/
def relation : Operator → Json → Json → Bool
  | .eq, a, b => a.equals b
  | .neq, a, b => !a.equals b
  | .gt, a, b => Json.orderedBy (· == .gt) a b
  | .lt, a, b => Json.orderedBy (· == .lt) a b
  | .gte, a, b => Json.orderedBy (· != .lt) a b
  | .lte, a, b => Json.orderedBy (· != .gt) a b
  | .contains, a, b => Json.textsRelate (fun s part => Text.containsPart part s) a b
  | .startsWith, a, b => Json.textsRelate (fun s start => start.isPrefixOf s) a b
  | .endsWith, a, b => Json.textsRelate (fun s finish => finish.isSuffixOf s) a b
  | .isIn, a, b => (a.member? b).getD false
  | .notIn, a, b => ((a.member? b).map (!·)).getD false
  | _, _, _ => false

/-- What an operator decides over values. Values behind those that it takes are ignored. -/
def apply (operator : Operator) (values : List Json) : Except EvalFault Bool :=
  match operator with
  | .and => .ok (values.all Json.truthy)
  | .or => .ok (values.any Json.truthy)
  | .not => (single .not values).map fun value => !value.truthy
  | .isNull => (single .isNull values).map fun value => value == .null
  | .isNotNull => (single .isNotNull values).map fun value => value != .null
  | operator => (pair operator values).map fun values => operator.relation values.1 values.2

end Operator

/-! ### Trees -/

namespace Expr

variable {σ : Type}

mutual

/-- The value of an operand: a condition gives its truth value, a value that is no node gives
null with a notice. -/
def operandValue (context : Context σ) : Expr → Run σ → Except EvalFault Json × Run σ
  | .condition tag operands, run =>
    match tag with
    | .unknown text => (.error (.unknownOperator text), run)
    | .known operator =>
      -- All operands come first: `and` and `or` do not stop at the operand that decides them.
      match operandValues context operands run with
      | (.error fault, run) => (.error fault, run)
      | (.ok values, run) => ((operator.apply values).map .bool, run)
  | .leaf operand, run =>
    let (value, run) := operand.resolve context run
    (.ok value, run)
  | .malformed raw, run => (.ok .null, run.note (.malformedOperand raw))

/-- The values of operands, from the left up to the first fault. -/
def operandValues (context : Context σ) : List Expr → Run σ → Except EvalFault (List Json) × Run σ
  | [], run => (.ok [], run)
  | operand :: rest, run =>
    match operandValue context operand run with
    | (.error fault, run) => (.error fault, run)
    | (.ok value, run) =>
      match operandValues context rest run with
      | (.error fault, run) => (.error fault, run)
      | (.ok values, run) => (.ok (value :: values), run)

end

/-- Evaluates a tree: a condition gives what its operator decides, a leaf the truth value that
its value counts as. -/
def run (context : Context σ) : Expr → Run σ → Except EvalFault Bool × Run σ
  | .condition tag operands, run =>
    match tag with
    -- An unknown operator is a fault before its operands are looked at.
    | .unknown text => (.error (.unknownOperator text), run)
    | .known operator =>
      match operandValues context operands run with
      | (.error fault, run) => (.error fault, run)
      | (.ok values, run) => (operator.apply values, run)
  | .leaf operand, run =>
    let (value, run) := operand.resolve context run
    (.ok value.truthy, run)
  | .malformed _, run => (.error .malformedNode, run)

/-- What a tree decides. A tree that cannot be evaluated decides false, with a notice.

There are two ways out, and not a third one for an evaluation that panics. No step of the
evaluation itself panics, and a panic of a function ends with its call, as an `Outcome`. What is
left is a panic beside the calls: in the message of a user's failure or in dropping it, in dropping
what a panic carries, or in the logger. Such an evaluation would decide false with a notice of its
own. It is not modelled, since `Outcome` and `Run.log` have no place for it. -/
def evaluate (context : Context σ) (expr : Expr) (start : Run σ) : Bool × Run σ :=
  match expr.run context start with
  | (.ok result, run) => (result, run)
  | (.error fault, run) => (false, run.note (.evaluationFailed fault))

end Expr

end EdgeGuard
