import EdgeGuard.Expr.Basic
import EdgeGuard.Notice

/-!
# `EdgeGuard.Expr.Validity`: whether a tree is well formed

The root is a condition, every condition has a known operator and a number of operands that its
arity takes, and every operand is a well-formed condition or a leaf. `Expr.check` gives the first
problem in depth-first order, a condition's own problem before those of its operands.
-/

set_option autoImplicit false

namespace EdgeGuard

/-- The operator of a condition with this tag and number of operands, or what is wrong with
the two. -/
def checkOperator (tag : OperatorTag) (count : Nat) : Except Problem Operator :=
  match tag with
  | .unknown text => .error (.unknownOperator text)
  | .known operator =>
    if count = 0 then .error (.emptyOperands operator)
    else if operator.arity.accepts count then .ok operator
    else .error (.arityMismatch operator operator.arity count)

namespace Expr

mutual

/-- Checks the operand of a condition that stands at a place. -/
def checkOperand (owner : Operator) (index : Nat) : Expr → Except Problem Unit
  | .condition tag operands =>
    match checkOperator tag operands.length with
    | .error problem => .error problem
    | .ok operator => checkOperands operator 0 operands
  | .leaf _ => .ok ()
  | .malformed _ => .error (.malformedOperand owner index)

/-- Checks operands from the left. The first of them stands at `index`. -/
def checkOperands (owner : Operator) (index : Nat) : List Expr → Except Problem Unit
  | [] => .ok ()
  | operand :: rest =>
    match checkOperand owner index operand with
    | .error problem => .error problem
    | .ok () => checkOperands owner (index + 1) rest

end

/-- Checks a tree. -/
def check : Expr → Except Problem Unit
  | .condition tag operands =>
    match checkOperator tag operands.length with
    | .error problem => .error problem
    | .ok operator => checkOperands operator 0 operands
  | .leaf _ => .error .notACondition
  | .malformed _ => .error .malformedNode

/-- Whether a tree is well formed, with a notice when it is not. -/
def isValid (expr : Expr) : Bool × List Notice :=
  match expr.check with
  | .ok () => (true, [])
  | .error problem => (false, [.conditionRejected problem])

end Expr

end EdgeGuard
