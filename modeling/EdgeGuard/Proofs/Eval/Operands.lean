import EdgeGuard.Proofs.Eval.Visits

/-!
# `EdgeGuard.Proofs.Eval.Operands`: operands that are made of operands

Often a tree is put around an operand and only changes the value that comes out of it: a negation
does, or a comparison with a value that is known already. Such a tree (`Expr.Maps`) may be put around
every operand of a list. The list is then evaluated as before, with the same visits and up to the
same fault, and each of its values is changed (`Expr.Maps.operandValues_map`).

* `operandValues_append_of_ok`, `operandValues_append_of_error`: two lists one behind the other.
* `maps_single`: a condition with one operand.
* `maps_beside`: a condition with two operands, the first of which makes no visits.
-/

set_option autoImplicit false

namespace EdgeGuard

variable {σ : Type}

namespace Expr

variable {context : Context σ}

/-! ### Conditions by the values of their operands -/

/-- A condition decides what its operator makes of the values of its operands. -/
theorem fst_evaluate_of_values {operands : List Expr} {start : Run σ} {values : List Json}
    (h : (operandValues context operands start).1 = .ok values) (operator : Operator) :
    ((Expr.condition (.known operator) operands).evaluate context start).1
      = (operator.apply values).toOption.getD false := by
  rw [fst_evaluate, run_known, h]
  rfl

/-- A condition decides false when there is a fault among its operands. -/
theorem fst_evaluate_of_fault {operands : List Expr} {start : Run σ} {fault : EvalFault}
    (h : (operandValues context operands start).1 = .error fault) (operator : Operator) :
    ((Expr.condition (.known operator) operands).evaluate context start).1 = false := by
  rw [fst_evaluate, run_known, h]
  rfl

/-- A fault among the first operands ends the evaluation of all. The run is the one behind the first
list, as nothing of the second one is reached. -/
theorem operandValues_append_of_error {before : List Expr} {run : Run σ} {fault : EvalFault}
    (h : (operandValues context before run).1 = .error fault) (others : List Expr) :
    operandValues context (before ++ others) run
      = (.error fault, (operandValues context before run).2) := by
  induction before generalizing run with
  | nil => cases h
  | cons operand rest ih =>
    rw [List.cons_append]
    cases hvalue : (operandValue context operand run).1 with
    | error found =>
      rw [operandValues_cons_of_error hvalue] at h ⊢
      cases h
      rw [operandValues_cons_of_error hvalue]
    | ok value =>
      rw [operandValues_cons_of_ok hvalue] at h ⊢
      rw [operandValues_cons_of_ok hvalue]
      -- The fault is one of the others, since the first operand has a value.
      cases hrest : (operandValues context rest (operandValue context operand run).2).1 with
      | error found =>
        rw [hrest] at h
        cases h
        rw [ih hrest]
        rfl
      | ok values =>
        rw [hrest] at h
        cases h

/-- Behind operands with values the others are evaluated. They start in the run that the first list
left. -/
theorem operandValues_append_of_ok {before : List Expr} {run : Run σ} {values : List Json}
    (h : (operandValues context before run).1 = .ok values) (others : List Expr) :
    operandValues context (before ++ others) run
      = ((operandValues context others (operandValues context before run).2).1.map (values ++ ·),
          (operandValues context others (operandValues context before run).2).2) := by
  induction before generalizing run values with
  | nil =>
    cases h
    show operandValues context others run = (Except.map id (operandValues context others run).1, _)
    rw [Except.map_id]
    rfl
  | cons operand rest ih =>
    obtain ⟨value, more, rfl, hvalue, hrest⟩ := operandValues_cons_eq_ok h
    rw [List.cons_append, operandValues_cons_of_ok hvalue, operandValues_cons_of_ok hvalue,
      ih hrest]
    cases (operandValues context others
      (operandValues context rest (operandValue context operand run).2).2).1 <;> rfl

/-- The values of one operand are its value. -/
theorem operandValues_singleton (context : Context σ) (operand : Expr) (run : Run σ) :
    operandValues context [operand] run
      = ((operandValue context operand run).1.map fun value => [value],
          (operandValue context operand run).2) := by
  cases hvalue : (operandValue context operand run).1 with
  | error fault =>
    rw [operandValues_cons_of_error hvalue]
    rfl
  | ok value =>
    rw [operandValues_cons_of_ok hvalue]
    rfl

/-- A condition with one operand decides what its operator makes of the value. -/
theorem run_single (context : Context σ) (operator : Operator) (operand : Expr) (run : Run σ) :
    (Expr.condition (.known operator) [operand]).run context run
      = ((operandValue context operand run).1.bind fun value => operator.apply [value],
          (operandValue context operand run).2) := by
  rw [run_known, operandValues_singleton]
  cases (operandValue context operand run).1 <;> rfl

/-- An operand that has a value, and leaves every run as it is. A variable and a constant are
settled, and a call is not, even when it always gives the same. -/
def Settled (context : Context σ) (operand : Expr) (value : Json) : Prop :=
  ∀ run, operandValue context operand run = (.ok value, run)

/-- Beside a settled operand, the other one is evaluated as if it stood alone. -/
theorem operandValues_of_settled {first : Expr} {value : Json}
    (h : first.Settled context value) (operand : Expr) (run : Run σ) :
    operandValues context [first, operand] run
      = ((operandValue context operand run).1.map fun other => [value, other],
          (operandValue context operand run).2) := by
  have hfirst : (operandValue context first run).1 = .ok value := by rw [h]
  -- The settled operand leaves the run as it is, so the other one starts where the list did.
  rw [operandValues_cons_of_ok hfirst, h, operandValues_singleton]
  cases (operandValue context operand run).1 <;> rfl

/-! ### Trees around operands -/

/-- A tree that is made around an operand gives what is made of the value of the operand. It makes
the visits of the operand and no others, and it fails when the operand does. The last part is what
makes this more than an equality of values: the run is that of the operand alone. -/
def Maps (context : Context σ) (around : Expr → Expr) (change : Json → Json) : Prop :=
  ∀ operand run, operandValue context (around operand) run
    = ((operandValue context operand run).1.map change, (operandValue context operand run).2)

/-- With a tree around each operand, a list gives what is made of its values. The induction is on
the list, and a fault of an operand is one of the tree around it. -/
theorem Maps.operandValues_map {around : Expr → Expr} {change : Json → Json}
    (h : Maps context around change) (operands : List Expr) (run : Run σ) :
    operandValues context (operands.map around) run
      = ((operandValues context operands run).1.map (List.map change),
          (operandValues context operands run).2) := by
  induction operands generalizing run with
  | nil => rfl
  | cons operand rest ih =>
    have haround := h operand run
    rw [List.map_cons]
    cases hvalue : (operandValue context operand run).1 with
    | error fault =>
      -- Both lists stop here, with the visits that the operand made.
      have hchanged : (operandValue context (around operand) run).1 = .error fault := by
        rw [haround, hvalue]
        rfl
      rw [operandValues_cons_of_error hvalue, operandValues_cons_of_error hchanged, haround]
      rfl
    | ok value =>
      have hchanged : (operandValue context (around operand) run).1 = .ok (change value) := by
        rw [haround, hvalue]
        rfl
      -- Both go on in the run that the operand left.
      rw [operandValues_cons_of_ok hvalue, operandValues_cons_of_ok hchanged, haround, ih]
      cases (operandValues context rest (operandValue context operand run).2).1 <;> rfl

/-- A condition around its only operand changes the value into a truth value. -/
theorem maps_single {operator : Operator} {test : Json → Bool}
    (h : ∀ value, operator.apply [value] = .ok (test value)) :
    Maps context (fun operand => .condition (.known operator) [operand])
      (fun value => .bool (test value)) := by
  intro operand run
  rw [operandValue_condition, run_single]
  cases (operandValue context operand run).1 with
  | error fault => rfl
  | ok value =>
    show ((operator.apply [value]).map Json.bool, _) = _
    rw [h]
    rfl

/-- So does a condition that has a settled operand beside it. The settled operand is evaluated
first, leaves the run as it is, and cannot fail. -/
theorem maps_beside {operator : Operator} {first : Expr} {value : Json} {test : Json → Bool}
    (hfirst : first.Settled context value)
    (h : ∀ other, operator.apply [value, other] = .ok (test other)) :
    Maps context (fun operand => .condition (.known operator) [first, operand])
      (fun other => .bool (test other)) := by
  intro operand run
  rw [operandValue_condition, run_known, operandValues_of_settled hfirst]
  cases (operandValue context operand run).1 with
  | error fault => rfl
  | ok other =>
    show ((operator.apply [value, other]).map Json.bool, _) = _
    rw [h]
    rfl

/-- A condition over such trees decides what its operator makes of the changed values. -/
theorem Maps.run_condition {around : Expr → Expr} {change : Json → Json}
    (h : Maps context around change) (operator : Operator) (operands : List Expr) (run : Run σ) :
    (Expr.condition (.known operator) (operands.map around)).run context run
      = ((operandValues context operands run).1.bind fun values =>
            operator.apply (values.map change),
          (operandValues context operands run).2) := by
  rw [run_known, h.operandValues_map]
  cases (operandValues context operands run).1 <;> rfl

end Expr

end EdgeGuard
