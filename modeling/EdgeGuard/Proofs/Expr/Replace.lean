import EdgeGuard.Expr.Validity
import EdgeGuard.Proofs.Expr.Nodes

/-!
# `EdgeGuard.Proofs.Expr.Replace`: trees with other leaves

`Expr.mapNodes` puts other leaves and other malformed values into a tree and leaves its conditions
as they are. A check looks at the operators of a tree, at the number of their operands and at the
places of malformed values. It does not look into a leaf or a malformed value, so it does not see
the difference (`check_mapNodes`).
-/

set_option autoImplicit false

namespace EdgeGuard.Expr

mutual

/-- The tree with other leaves and other malformed values in the same places. -/
def mapNodes (leaf : Operand → Operand) (malformed : Json → Json) : Expr → Expr
  | .condition tag operands => .condition tag (mapNodesAll leaf malformed operands)
  | .leaf operand => .leaf (leaf operand)
  | .malformed raw => .malformed (malformed raw)

def mapNodesAll (leaf : Operand → Operand) (malformed : Json → Json) : List Expr → List Expr
  | [] => []
  | operand :: rest => mapNodes leaf malformed operand :: mapNodesAll leaf malformed rest

end

variable (leaf : Operand → Operand) (malformed : Json → Json)

/-- The operands are replaced one by one, so the recursion over the list is a map. -/
theorem mapNodesAll_eq_map (operands : List Expr) :
    mapNodesAll leaf malformed operands = operands.map (mapNodes leaf malformed) := by
  induction operands with
  | nil => rfl
  | cons operand rest ih => rw [mapNodesAll, ih, List.map_cons]

/-- A condition keeps its operator, and its operands are replaced one by one. -/
theorem mapNodes_condition (tag : OperatorTag) (operands : List Expr) :
    mapNodes leaf malformed (.condition tag operands)
      = .condition tag (operands.map (mapNodes leaf malformed)) := by
  rw [mapNodes, mapNodesAll_eq_map]

/-- Operands pass or fail a check together with those that are put in their places, when each one
does. -/
theorem checkOperands_map {replace : Expr → Expr} {operands : List Expr}
    (h : ∀ operand ∈ operands, ∀ owner index,
      checkOperand owner index (replace operand) = checkOperand owner index operand)
    (owner : Operator) (index : Nat) :
    checkOperands owner index (operands.map replace) = checkOperands owner index operands := by
  induction operands generalizing index with
  | nil => rfl
  | cons operand rest ih =>
    rw [List.map_cons, checkOperands, checkOperands, h operand List.mem_cons_self]
    cases checkOperand owner index operand with
    | error problem => rfl
    | ok _ => exact ih (fun operand hmem => h operand (List.mem_cons_of_mem _ hmem)) (index + 1)

/-- A condition passes or fails a check together with one whose operands are put in the places of
its own. -/
theorem checkCondition_map {replace : Expr → Expr} {operands : List Expr}
    (h : ∀ operand ∈ operands, ∀ owner index,
      checkOperand owner index (replace operand) = checkOperand owner index operand)
    (tag : OperatorTag) :
    check (.condition tag (operands.map replace)) = check (.condition tag operands) := by
  rw [check, check, List.length_map]
  cases checkOperator tag operands.length with
  | error problem => rfl
  | ok operator => exact checkOperands_map h operator 0

/-- The check of an operand does not look into leaves and malformed values, whoever owns the
operand. -/
theorem checkOperand_mapNodes (expr : Expr) (owner : Operator) (index : Nat) :
    checkOperand owner index (mapNodes leaf malformed expr) = checkOperand owner index expr := by
  induction expr generalizing owner index with
  | condition tag operands ih =>
    rw [mapNodes_condition]
    exact checkCondition_map ih tag
  | leaf operand => rfl
  | malformed raw => rfl

/-- A check does not look into leaves and malformed values. -/
theorem check_mapNodes (expr : Expr) : (mapNodes leaf malformed expr).check = expr.check := by
  cases expr with
  | condition tag operands =>
    rw [mapNodes_condition]
    exact checkCondition_map (fun operand _ => checkOperand_mapNodes leaf malformed operand) tag
  | leaf operand => rfl
  | malformed raw => rfl

end EdgeGuard.Expr
