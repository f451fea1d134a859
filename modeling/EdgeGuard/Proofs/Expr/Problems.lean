import EdgeGuard.Proofs.Expr.Check

/-!
# `EdgeGuard.Proofs.Expr.Problems`: the check reports the first of all problems

`Expr.problems` collects everything that is wrong with a tree. It never stops: a condition with a
problem of its own is still searched for the problems of its operands, and an operand that is no
node does not end the search behind it. The list is in depth-first order, a condition before its
operands and the operands from the left.

A check stops at the first problem that it meets. `Problem.report` is what such a check makes of a
list of problems. It turns lists one behind the other into checks one after the other
(`Problem.report_append`), and this carries the proof: by induction on the tree, the check of each
part reports the problems of that part.

* `check_eq_report_problems`: the check reports the first problem of the tree, with all that the
  problem says.
-/

set_option autoImplicit false

namespace EdgeGuard

/-- What a condition does wrong itself, by its tag and its number of operands. It is one thing at
most: with an unknown operator no number is wrong, and without operands their number is not
compared with the arity. -/
def OperatorTag.problems (tag : OperatorTag) (count : Nat) : List Problem :=
  match tag with
  | .unknown text => [.unknownOperator text]
  | .known operator =>
    if count = 0 then [.emptyOperands operator]
    else if TakesOperands operator.tag count then []
    else [.arityMismatch operator operator.arity count]

namespace Problem

/-- The answer of a check that stops at the first problem. -/
def report : List Problem → Except Problem Unit
  | [] => .ok ()
  | problem :: _ => .error problem

/-- The problems of a second part count when the first part has none. -/
theorem report_append (problems others : List Problem) :
    report (problems ++ others) = (report problems).bind fun _ => report others := by
  cases problems <;> rfl

end Problem

namespace Expr

mutual

/-- The problems of the operand of a condition that stands at a place. An operand that is no node is
a problem of the operator that it belongs to, so under an unknown operator it is none. -/
def operandProblems (owner : OperatorTag) (index : Nat) : Expr → List Problem
  | .condition tag operands => tag.problems operands.length ++ operandsProblems tag 0 operands
  | .leaf _ => []
  | .malformed _ =>
    match owner with
    | .known operator => [.malformedOperand operator index]
    | .unknown _ => []

/-- The problems of operands from the left. The first of them stands at `index`. -/
def operandsProblems (owner : OperatorTag) (index : Nat) : List Expr → List Problem
  | [] => []
  | operand :: rest =>
    operandProblems owner index operand ++ operandsProblems owner (index + 1) rest

end

/-- All problems of a tree. -/
def problems : Expr → List Problem
  | .condition tag operands => tag.problems operands.length ++ operandsProblems tag 0 operands
  | .leaf _ => [.notACondition]
  | .malformed _ => [.malformedNode]

/-- The tag and the number of operands of a condition are in order, or they are its one problem. -/
theorem checkOperator_cases (tag : OperatorTag) (count : Nat) :
    (∃ operator, tag = .known operator ∧ checkOperator tag count = .ok operator ∧
        tag.problems count = []) ∨
      ∃ problem, checkOperator tag count = .error problem ∧ tag.problems count = [problem] := by
  cases tag with
  | unknown text => exact .inr ⟨.unknownOperator text, rfl, rfl⟩
  | known operator =>
    have haccepts := operator.accepts_iff_takesOperands count
    by_cases hzero : count = 0
    · subst hzero
      exact .inr ⟨.emptyOperands operator, rfl, rfl⟩
    · by_cases htakes : TakesOperands operator.tag count
      · refine .inl ⟨operator, rfl, ?_, ?_⟩
        · simp [checkOperator, hzero, haccepts.2 htakes]
        · simp [OperatorTag.problems, hzero, htakes]
      · refine .inr ⟨.arityMismatch operator operator.arity count, ?_, ?_⟩
        · simp [checkOperator, hzero, mt haccepts.1 htakes]
        · simp [OperatorTag.problems, hzero, htakes]

/-- Operands are reported one after the other, when the check of each operand reports its
problems. -/
theorem checkOperands_eq_report {operands : List Expr}
    (h : ∀ operand ∈ operands, ∀ owner index, checkOperand owner index operand
      = Problem.report (operandProblems (.known owner) index operand))
    (owner : Operator) (index : Nat) :
    checkOperands owner index operands
      = Problem.report (operandsProblems (.known owner) index operands) := by
  induction operands generalizing index with
  | nil => rfl
  | cons operand rest ih =>
    have hrest := ih (fun operand hmem => h operand (List.mem_cons_of_mem _ hmem)) (index + 1)
    rw [checkOperands, operandsProblems, Problem.report_append,
      ← h operand List.mem_cons_self owner index, ← hrest]
    cases checkOperand owner index operand <;> rfl

/-- The check of a condition reports its problems, when the check of each operand does. -/
theorem checkCondition_eq_report {operands : List Expr}
    (h : ∀ operand ∈ operands, ∀ owner index, checkOperand owner index operand
      = Problem.report (operandProblems (.known owner) index operand))
    (tag : OperatorTag) :
    check (.condition tag operands) = Problem.report (problems (.condition tag operands)) := by
  rw [check, problems]
  rcases checkOperator_cases tag operands.length with
    ⟨operator, rfl, hcheck, hnone⟩ | ⟨problem, hcheck, hone⟩
  · -- The condition is in order itself, so its operands are looked at.
    rw [hcheck, hnone]
    exact checkOperands_eq_report h operator 0
  · -- The check stops here. The list goes on behind the problem, and nothing of that counts.
    rw [hcheck, hone]
    rfl

/-- The check of an operand reports its problems. -/
theorem checkOperand_eq_report (operand : Expr) (owner : Operator) (index : Nat) :
    checkOperand owner index operand
      = Problem.report (operandProblems (.known owner) index operand) := by
  induction operand generalizing owner index with
  | condition tag operands ih =>
    -- A condition is checked as an operand in the way in which it is checked as a root.
    show check (.condition tag operands) = Problem.report (problems (.condition tag operands))
    exact checkCondition_eq_report ih tag
  | leaf operand => rfl
  | malformed raw => rfl

/-- **The check reports the first of all problems.** Whatever else is wrong with a tree, the check
gives the problem that stands first in the list of all its problems, in depth-first order. It
passes the tree when the list is empty. -/
theorem check_eq_report_problems (expr : Expr) : expr.check = Problem.report expr.problems := by
  cases expr with
  | condition tag operands =>
    exact checkCondition_eq_report (fun operand _ => checkOperand_eq_report operand) tag
  | leaf operand => rfl
  | malformed raw => rfl

-- The list goes on behind every problem: behind a wrong number of operands, a value that is no
-- node, an unknown operator, and a condition without operands under it.
example : problems (.condition (.known .eq)
    [.malformed .null,
      .condition (.unknown "xor") [.malformed .null, .condition (.known .and) []],
      .condition (.known .not) [.malformed .null]])
    = [.arityMismatch .eq (.exactly 2) 3, .malformedOperand .eq 0, .unknownOperator "xor",
      .emptyOperands .and, .malformedOperand .not 0] := by
  decide

end Expr

end EdgeGuard
