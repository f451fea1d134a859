import EdgeGuard.Operator

/-!
# `EdgeGuard.Fault`: what can be wrong with a tree

Three questions are asked of a tree, and each has its own faults: whether it is well formed
(`Problem`), what it decides (`EvalFault`) and how it reads as text (`RenderFault`).
-/

set_option autoImplicit false

namespace EdgeGuard

/-- Why a tree is not well formed. -/
inductive Problem where
  /-- The root is a leaf. -/
  | notACondition
  /-- The root is no node. -/
  | malformedNode
  | unknownOperator (tag : String)
  | emptyOperands (operator : Operator)
  | arityMismatch (operator : Operator) (expected : Arity) (found : Nat)
  /-- An operand is neither a condition nor a leaf. -/
  | malformedOperand (operator : Operator) (index : Nat)
deriving DecidableEq

/-- Why a tree decides nothing. -/
inductive EvalFault where
  | unknownOperator (tag : String)
  | malformedNode
  | missingOperand (operator : Operator) (index : Nat)
deriving DecidableEq

/-- Why a tree has no text. -/
inductive RenderFault where
  | unknownOperator (tag : String)
  | malformedNode
  | missingOperand (operator : Operator) (index : Nat)
deriving DecidableEq

/-- The words for a missing operand. -/
def missingOperandText (operator : Operator) (index : Nat) : String :=
  "Operator '" ++ operator.tag ++ "' is missing operand " ++ toString index

/-- The words for a problem. -/
def Problem.message : Problem → String
  | .notACondition => "Expected a condition node at the root, found an operand"
  | .malformedNode => "Malformed expression node"
  | .unknownOperator tag => "Unknown operator: " ++ tag
  | .emptyOperands operator => "Operator '" ++ operator.tag ++ "' has no operands"
  | .arityMismatch operator expected found =>
    "Operator '" ++ operator.tag ++ "' expects " ++ expected.text ++ " operand(s), found "
      ++ toString found
  | .malformedOperand operator index =>
    "Operand " ++ toString index ++ " of '" ++ operator.tag ++ "' is malformed"

/-- The words for a tree that decides nothing. -/
def EvalFault.message : EvalFault → String
  | .unknownOperator tag => "Unsupported operator: " ++ tag
  | .malformedNode => "Cannot evaluate a malformed expression node"
  | .missingOperand operator index => missingOperandText operator index

/-- The words for a tree that has no text. -/
def RenderFault.message : RenderFault → String
  | .unknownOperator tag => "Unsupported operator: " ++ tag
  | .malformedNode => "Cannot render a malformed expression node"
  | .missingOperand operator index => missingOperandText operator index

end EdgeGuard
