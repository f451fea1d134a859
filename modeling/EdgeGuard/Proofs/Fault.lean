import EdgeGuard.Fault

/-!
# `EdgeGuard.Proofs.Fault`: two questions that end in the same way

Two results correspond when both are values or both are faults. What makes two values, and what
makes two faults, the same is left open: the results may be those of one question asked twice, or
those of two questions with faults of their own (`SameProblem`).

* `Corresponds.bind` and `Corresponds.map`: results that correspond may be taken further.
-/

set_option autoImplicit false

namespace EdgeGuard

/-- Both results are values in a relation, or both are faults in a relation. -/
inductive Corresponds {ε δ α β : Type} (faults : ε → δ → Prop) (values : α → β → Prop) :
    Except ε α → Except δ β → Prop
  | ok {a : α} {b : β} (h : values a b) : Corresponds faults values (.ok a) (.ok b)
  | error {e : ε} {d : δ} (h : faults e d) : Corresponds faults values (.error e) (.error d)

/-- What is asked of two values that correspond ends in the same way when the questions do. -/
theorem Corresponds.bind {ε δ α β α' β' : Type} {faults : ε → δ → Prop} {values : α → β → Prop}
    {values' : α' → β' → Prop} {first : Except ε α} {second : Except δ β}
    {f : α → Except ε α'} {g : β → Except δ β'} (h : Corresponds faults values first second)
    (hnext : ∀ a b, values a b → Corresponds faults values' (f a) (g b)) :
    Corresponds faults values' (first.bind f) (second.bind g) := by
  cases h with
  | ok h => exact hnext _ _ h
  | error h => exact .error h

/-- What is made of two values leaves faults as they are. -/
theorem Corresponds.map {ε δ α β α' β' : Type} {faults : ε → δ → Prop} {values : α → β → Prop}
    {values' : α' → β' → Prop} {first : Except ε α} {second : Except δ β} {f : α → α'} {g : β → β'}
    (h : Corresponds faults values first second) (hnext : ∀ a b, values a b → values' (f a) (g b)) :
    Corresponds faults values' (first.map f) (second.map g) := by
  cases h with
  | ok h => exact .ok (hnext _ _ h)
  | error h => exact .error h

/-- The fault of an evaluation and the fault of a sentence name one problem of the tree. -/
inductive SameProblem : EvalFault → RenderFault → Prop
  | unknownOperator (text : String) : SameProblem (.unknownOperator text) (.unknownOperator text)
  | malformedNode : SameProblem .malformedNode .malformedNode
  | missingOperand (operator : Operator) (index : Nat) :
      SameProblem (.missingOperand operator index) (.missingOperand operator index)

end EdgeGuard
