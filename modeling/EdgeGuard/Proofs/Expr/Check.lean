import EdgeGuard.Expr.Validity
import EdgeGuard.Proofs.Expr.Nodes
import EdgeGuard.Proofs.Operator

/-!
# `EdgeGuard.Proofs.Expr.Check`: the trees that pass the check

`Expr.check` walks over a tree and stops at the first problem. A tree passes exactly when its root
is a condition and every node is sound on its own: a condition has a known operator and as many
operands as the tag takes, and no node is malformed (`check_eq_ok_iff`). The walk itself, with its
owner and index for the messages, does not come up again behind this lemma.
-/

set_option autoImplicit false

namespace EdgeGuard

/-- A tag and a number of operands pass when the tag is that of the operator and takes them. The
check tells an operator without operands from one with a wrong number of them. Which of the two it
is does not matter here. -/
theorem checkOperator_eq_ok_iff (tag : OperatorTag) (count : Nat) (operator : Operator) :
    checkOperator tag count = .ok operator
      ↔ tag = .known operator ∧ TakesOperands operator.tag count := by
  cases tag with
  | unknown text => simp [checkOperator]
  | known known =>
    rw [← Operator.accepts_iff_takesOperands]
    -- No operator takes zero operands, so the first test of the check does not change what passes.
    by_cases hzero : count = 0
    · subst hzero
      have hnone : ¬ operator.arity.accepts 0 = true := by cases operator <;> decide
      simp [checkOperator, hnone]
    · by_cases haccepts : known.arity.accepts count = true
      · simp only [checkOperator, if_neg hzero, if_pos haccepts]
        constructor
        · intro h
          cases h
          exact ⟨rfl, haccepts⟩
        · rintro ⟨h, -⟩
          cases h
          rfl
      · simp only [checkOperator, if_neg hzero, if_neg haccepts]
        constructor
        · intro h
          cases h
        · rintro ⟨h, hknown⟩
          cases h
          exact absurd hknown haccepts

namespace Expr

/-- A node that is in order by itself, whatever its operands are. A leaf is in order whatever it
names, as the check does not know the context. -/
def Sound : Expr → Prop
  | .condition tag operands =>
    ∃ operator, tag = .known operator ∧ TakesOperands operator.tag operands.length
  | .leaf _ => True
  | .malformed _ => False

/-- Operands pass when each of them does. The owner and the index only say where a problem is, so
the hypothesis is for all of them. -/
theorem checkOperands_eq_ok_iff {operands : List Expr}
    (h : ∀ operand ∈ operands, ∀ owner index,
      checkOperand owner index operand = .ok () ↔ operand.Everywhere Sound)
    (owner : Operator) (index : Nat) :
    checkOperands owner index operands = .ok ()
      ↔ ∀ operand ∈ operands, operand.Everywhere Sound := by
  -- The index moves on with every operand, so it is general in the induction.
  induction operands generalizing index with
  | nil => simp [checkOperands]
  | cons operand rest ih =>
    have hrest := ih (fun operand hmem => h operand (List.mem_cons_of_mem _ hmem)) (index + 1)
    rw [List.forall_mem_cons, ← hrest, ← h operand List.mem_cons_self owner index, checkOperands]
    cases checkOperand owner index operand with
    | error problem => simp
    | ok _ => simp

/-- A condition passes when it is sound and its operands pass. The check looks at the node itself
first, and at its operands from left to right. -/
theorem checkCondition_eq_ok_iff {tag : OperatorTag} {operands : List Expr}
    (h : ∀ operand ∈ operands, ∀ owner index,
      checkOperand owner index operand = .ok () ↔ operand.Everywhere Sound) :
    check (.condition tag operands) = .ok () ↔ (Expr.condition tag operands).Everywhere Sound := by
  rw [everywhere_condition_iff, check]
  cases hoperator : checkOperator tag operands.length with
  | error problem =>
    have hnot : ¬ Sound (.condition tag operands) := by
      rintro ⟨operator, hsound⟩
      rw [(checkOperator_eq_ok_iff _ _ _).2 hsound] at hoperator
      cases hoperator
    simp [hnot]
  | ok operator =>
    have hsound : Sound (.condition tag operands) :=
      ⟨operator, (checkOperator_eq_ok_iff _ _ _).1 hoperator⟩
    simp only [hsound, true_and]
    exact checkOperands_eq_ok_iff h operator 0

/-- An operand passes when every node in it is sound. A leaf passes as an operand, which it does not
as a root. -/
theorem checkOperand_eq_ok_iff (operand : Expr) (owner : Operator) (index : Nat) :
    checkOperand owner index operand = .ok () ↔ operand.Everywhere Sound := by
  induction operand generalizing owner index with
  | condition tag operands ih => exact checkCondition_eq_ok_iff ih
  | leaf operand => simp [checkOperand, everywhere_leaf_iff, Sound]
  | malformed raw => simp [checkOperand, everywhere_malformed_iff, Sound]

/-- A tree passes when its root is a condition and every node in it is sound. What is known of a
tree that passes is then known of each node in it, by `Everywhere`. -/
theorem check_eq_ok_iff (expr : Expr) :
    expr.check = .ok () ↔ expr.isCondition = true ∧ expr.Everywhere Sound := by
  -- A leaf or a malformed node at the root is refused for not being a condition.
  cases expr with
  | condition tag operands =>
    rw [checkCondition_eq_ok_iff fun operand _ => checkOperand_eq_ok_iff operand]
    simp [isCondition]
  | leaf operand => simp [check, isCondition]
  | malformed raw => simp [check, isCondition]

end Expr

end EdgeGuard
