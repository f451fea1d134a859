import EdgeGuard.Proofs.Eval.Operands

/-!
# `EdgeGuard.Proofs.Eval.Negation`: a negation may be pushed inward

`not` of a condition is decided by the values that the condition has: it turns around what the
operator decides (`run_negated`). A negation around each operand of a list turns around what each
value counts as (`maps_negated`). Both leave the visits as they are, and both fail when an operand
does, with the same fault. So the laws of Boolean algebra carry over to trees, with their calls,
their notices and their faults.

A failing tree shows why this is not clear from the decisions alone: it decides false, and its
negation decides false too.

* `run_negated_eq`: a negation is gone when another operator decides the opposite.
* `run_negated_of_each`: a negation is moved to each operand.
* `negation_pushed_inward`: the five laws.
-/

set_option autoImplicit false

namespace EdgeGuard

variable {σ : Type}

namespace Expr

/-- The condition that a tree is not true. -/
def negated (expr : Expr) : Expr := .condition (.known .not) [expr]

variable {context : Context σ} {start : Run σ}

/-- Trees that are evaluated in the same way decide the same, with the same calls and notices. -/
theorem evaluate_eq_of_run_eq {a b : Expr} (h : a.run context start = b.run context start) :
    a.evaluate context start = b.evaluate context start := by
  rw [evaluate, evaluate, h]

/-- A negation turns around what the operator decides over the same values. -/
theorem run_negated (context : Context σ) (operator : Operator) (operands : List Expr)
    (start : Run σ) :
    (negated (.condition (.known operator) operands)).run context start
      = ((operandValues context operands start).1.bind fun values =>
            (operator.apply values).map (!·),
          (operandValues context operands start).2) := by
  rw [negated, run_single, operandValue_condition, run_known]
  cases (operandValues context operands start).1 with
  | error fault => rfl
  | ok values =>
    -- The decision is handed to `not` as a truth value, which counts as itself.
    show (((operator.apply values).map Json.bool).bind _, _) = ((operator.apply values).map _, _)
    cases operator.apply values <;> rfl

/-- A negation as an operand gives the opposite of what the value counts as. -/
theorem maps_negated (context : Context σ) :
    Maps context negated (fun value => .bool !value.truthy) :=
  maps_single fun _ => rfl

/-- A negated condition is another one over the same operands, when its operator decides the
opposite of as many values as there are operands. -/
theorem run_negated_eq {operator opposite : Operator} {operands : List Expr}
    (h : ∀ values : List Json, values.length = operands.length →
      (operator.apply values).map (!·) = opposite.apply values) :
    (negated (.condition (.known operator) operands)).run context start
      = (Expr.condition (.known opposite) operands).run context start := by
  rw [run_negated, run_known]
  cases hvalues : (operandValues context operands start).1 with
  | error fault => rfl
  | ok values =>
    -- An operator fails when there are too few values, so their number is part of the law.
    show ((operator.apply values).map _, _) = (opposite.apply values, _)
    rw [h values (length_of_operandValues hvalues)]

/-- A negated condition is another one over negated operands, when its operator decides the opposite
of values that count as the opposite. -/
theorem run_negated_of_each {operator dual : Operator} (operands : List Expr)
    (h : ∀ values : List Json, (operator.apply values).map (!·)
      = dual.apply (values.map fun value => .bool !value.truthy)) :
    (negated (.condition (.known operator) operands)).run context start
      = (Expr.condition (.known dual) (operands.map negated)).run context start := by
  rw [run_negated, (maps_negated context).run_condition]
  cases (operandValues context operands start).1 with
  | error fault => rfl
  | ok values =>
    show ((operator.apply values).map _, _) = (dual.apply _, _)
    rw [h values]

end Expr

namespace Operator

/-- The opposite of `and` is `or` over the opposites, for any number of values. -/
theorem not_and_apply (values : List Json) :
    (Operator.and.apply values).map (!·)
      = Operator.or.apply (values.map fun value => .bool !value.truthy) := by
  simp only [apply, Except.map, List.any_map, List.not_all_eq_any_not]
  rfl

/-- The opposite of `or` is `and` over the opposites, for any number of values. -/
theorem not_or_apply (values : List Json) :
    (Operator.or.apply values).map (!·)
      = Operator.and.apply (values.map fun value => .bool !value.truthy) := by
  simp only [apply, Except.map, List.all_map, List.not_any_eq_all_not]
  rfl

end Operator

namespace Expr

/-- **A negation may be pushed inward.** In every context, also with functions that give something
else on each call, the two trees of each law decide the same, and they make the same calls in the
same order, change the world alike and write the same notices.

* `not` of an `and` is the `or` of the negated operands, and `not` of an `or` is their `and`. The
  operands may be leaves, values that are no nodes and conditions that fail, and there may be none.
* `not` of `eq` is `neq`, and `not` of `isNull` is `isNotNull`.
* `not` of `not` is `or` with one operand. -/
theorem negation_pushed_inward (context : Context σ) (start : Run σ) (operands : List Expr)
    (x y : Expr) :
    (negated (.condition (.known .and) operands)).evaluate context start
        = (Expr.condition (.known .or) (operands.map negated)).evaluate context start ∧
      (negated (.condition (.known .or) operands)).evaluate context start
        = (Expr.condition (.known .and) (operands.map negated)).evaluate context start ∧
      (negated (.condition (.known .eq) [x, y])).evaluate context start
        = (Expr.condition (.known .neq) [x, y]).evaluate context start ∧
      (negated (.condition (.known .isNull) [x])).evaluate context start
        = (Expr.condition (.known .isNotNull) [x]).evaluate context start ∧
      (negated (negated x)).evaluate context start
        = (Expr.condition (.known .or) [x]).evaluate context start := by
  refine ⟨?_, ?_, ?_, ?_, ?_⟩
  · exact evaluate_eq_of_run_eq (run_negated_of_each operands Operator.not_and_apply)
  · exact evaluate_eq_of_run_eq (run_negated_of_each operands Operator.not_or_apply)
  · refine evaluate_eq_of_run_eq (run_negated_eq fun values hlength => ?_)
    -- The number of values is that of the operands, and over two values `neq` is defined as the
    -- opposite of `eq`.
    match values, hlength with
    | [a, b], _ => rfl
  · refine evaluate_eq_of_run_eq (run_negated_eq fun values hlength => ?_)
    match values, hlength with
    | [a], _ => rfl
  · refine evaluate_eq_of_run_eq (run_negated_eq fun values hlength => ?_)
    match values, hlength with
    | [a], _ =>
      show Except.ok (!!a.truthy) = .ok (a.truthy || false)
      rw [Bool.not_not, Bool.or_false]

end Expr

end EdgeGuard
