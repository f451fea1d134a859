import EdgeGuard.Proofs.Eval.Visits
import EdgeGuard.Proofs.Expr.Check

/-!
# `EdgeGuard.Proofs.Eval.Faults`: which trees cannot be evaluated

An evaluation gives up at a condition whose operator is unknown or lacks operands
(`Expr.Broken`), and at a root that is no node. A value that is no node counts as null when it is
an operand. Nothing else is a fault: a variable that is not bound, a call that fails and a call
that panics all give null.

`Expr.StopsAt` says where the evaluation of a tree stops. The two cases differ: an unknown operator
stops it before the operands of the condition, a missing operand behind all operands that are
there. In between stand the operands to the left, which are all evaluated.

* `run_cases`: a tree is either evaluated to its end, or it fails at one place.
* `ofResult?_run_eq`: the fault of a tree is the same in all contexts, and a tree has one when its
  root is no node or a broken condition stands anywhere in it.
-/

set_option autoImplicit false

namespace EdgeGuard

namespace Operator

/-- An operator needs values when its tag takes one or two operands. The left side goes by the tag,
and the right side is how the evaluation counts. -/
theorem lacksOperands_iff (operator : Operator) (count : Nat) :
    LacksOperands operator.tag count ↔ count < operator.needs := by
  cases operator <;>
    simp [LacksOperands, needs, operandCount, tag, unaryTags, binaryTags]

/-- The fault of a missing operand names the first place without one. -/
theorem lacks?_of_lacksOperands {operator : Operator} {count : Nat}
    (h : LacksOperands operator.tag count) :
    operator.lacks? count = some (.missingOperand operator count) := by
  rw [lacks?, if_pos ((lacksOperands_iff operator count).1 h)]

/-- With enough operands there is no fault, also with more than are looked at. -/
theorem lacks?_of_not_lacksOperands {operator : Operator} {count : Nat}
    (h : ¬ LacksOperands operator.tag count) : operator.lacks? count = none := by
  rw [lacks?, if_neg fun hlt => h ((lacksOperands_iff operator count).2 hlt)]

/-- An operator lacks nothing when it has as many operands as its tag takes. -/
theorem not_lacksOperands_of_takes {operator : Operator} {count : Nat}
    (h : TakesOperands operator.tag count) : ¬ LacksOperands operator.tag count := by
  have haccepts := (accepts_iff_takesOperands operator count).2 h
  rw [lacksOperands_iff]
  cases operator <;> simp [arity, Arity.accepts, needs, operandCount] at haccepts ⊢ <;> omega

end Operator

namespace Expr

variable {σ : Type}

/-! ### Broken conditions -/

/-- A condition that no evaluation gets past: its operator is unknown or lacks operands. It is about
the node alone. A condition is not broken by its operands. -/
def Broken : Expr → Prop
  | .condition (.unknown _) _ => True
  | .condition (.known operator) operands => LacksOperands operator.tag operands.length
  | .leaf _ => False
  | .malformed _ => False

/-- No condition in the tree is broken. Only conditions can be broken, so values that are no nodes
may stand among the operands. -/
def Unbroken (expr : Expr) : Prop := expr.Everywhere fun node => ¬ node.Broken

/-- A sound node is not broken. The converse fails: a surplus operand breaks nothing. -/
theorem unbroken_of_sound {expr : Expr} (h : expr.Everywhere Sound) : expr.Unbroken := by
  refine h.mono fun node hsound => ?_
  cases node with
  | condition tag operands =>
    obtain ⟨operator, rfl, htakes⟩ := hsound
    exact Operator.not_lacksOperands_of_takes htakes
  | leaf operand => exact not_false
  | malformed raw => exact not_false

/-! ### The place of a fault -/

/-- Where the evaluation of a condition stops: the names of the function leaves that are visited
before, and the fault. The order of evaluation is from the left, so all operands before the place
are evaluated to their end. -/
inductive StopsAt : Expr → List String → EvalFault → Prop
  /-- An unknown operator is a fault before the operands of its condition. -/
  | unknown (text : String) (operands : List Expr) :
      StopsAt (.condition (.unknown text) operands) [] (.unknownOperator text)
  /-- A missing operand is a fault behind all operands that are there. -/
  | lacking {operator : Operator} {operands : List Expr}
      (hoperands : ∀ operand ∈ operands, operand.Unbroken)
      (hlacks : LacksOperands operator.tag operands.length) :
      StopsAt (.condition (.known operator) operands) (functionNamesAll operands)
        (.missingOperand operator operands.length)
  /-- The first operand that stops stops the condition. What stands behind it does not matter. -/
  | deeper {operator : Operator} {before : List Expr} {operand : Expr} {names : List String}
      {fault : EvalFault} (hbefore : ∀ earlier ∈ before, earlier.Unbroken)
      (h : StopsAt operand names fault) (after : List Expr) :
      StopsAt (.condition (.known operator) (before ++ operand :: after))
        (functionNamesAll before ++ names) fault

/-- Where the evaluation of a tree stops. A root that is no node is a fault of its own. Below the
root such a value is no fault, so this is no case of `StopsAt`. -/
def FailsAfter (expr : Expr) (names : List String) (fault : EvalFault) : Prop :=
  (∃ raw, expr = .malformed raw ∧ names = [] ∧ fault = .malformedNode) ∨
    expr.StopsAt names fault

/-- Operands without a broken condition, or the first of them in which the evaluation stops. The
induction is on the list, and the first operand that stops decides. -/
theorem operands_cases {operands : List Expr}
    (h : ∀ operand ∈ operands, operand.Unbroken ∨ ∃ names fault, operand.StopsAt names fault) :
    (∀ operand ∈ operands, operand.Unbroken) ∨
      ∃ before operand after names fault, operands = before ++ operand :: after ∧
        (∀ earlier ∈ before, earlier.Unbroken) ∧ operand.StopsAt names fault := by
  -- The first one that stops: the head, or the first behind a head that does not stop.
  induction operands with
  | nil => exact .inl fun operand hmem => absurd hmem List.not_mem_nil
  | cons operand rest ih =>
    rcases h operand List.mem_cons_self with hwhole | ⟨names, fault, hstops⟩
    · rcases ih fun operand hmem => h operand (List.mem_cons_of_mem _ hmem) with
        hrest | ⟨before, first, after, names, fault, rfl, hbefore, hstops⟩
      · exact .inl (List.forall_mem_cons.2 ⟨hwhole, hrest⟩)
      · exact .inr ⟨operand :: before, first, after, names, fault, rfl,
          List.forall_mem_cons.2 ⟨hwhole, hbefore⟩, hstops⟩
    · exact .inr ⟨[], operand, rest, names, fault, rfl,
        fun earlier hmem => absurd hmem List.not_mem_nil, hstops⟩

/-- The evaluation of a tree with a broken condition stops somewhere. The place is the first one
from the left. -/
theorem unbroken_or_stopsAt (expr : Expr) :
    expr.Unbroken ∨ ∃ names fault, expr.StopsAt names fault := by
  induction expr with
  | condition tag operands ih =>
    cases tag with
    | unknown text => exact .inr ⟨_, _, .unknown text operands⟩
    | known operator =>
      -- An operand that stops comes before a missing one.
      rcases operands_cases ih with hall | ⟨before, operand, after, names, fault, rfl, hbefore, h⟩
      · by_cases hlacks : LacksOperands operator.tag operands.length
        · exact .inr ⟨_, _, .lacking hall hlacks⟩
        · exact .inl (.condition hlacks hall)
      · exact .inr ⟨_, _, .deeper hbefore h after⟩
  | leaf operand => exact .inl (.leaf not_false)
  | malformed raw => exact .inl (.malformed not_false)

/-- A condition stands in the tree where its evaluation stops. The converse is
`unbroken_or_stopsAt`, since a tree with a broken condition is not unbroken. -/
theorem exists_broken_of_stopsAt {expr : Expr} {names : List String} {fault : EvalFault}
    (h : expr.StopsAt names fault) : ∃ node : Expr, node.Within expr ∧ node.Broken := by
  induction h with
  | unknown text operands => exact ⟨_, .root, trivial⟩
  | lacking _ hlacks => exact ⟨_, .root, hlacks⟩
  | deeper _ _ after ih =>
    obtain ⟨node, hwithin, hbroken⟩ := ih
    exact ⟨node, .operand (List.mem_append_right _ List.mem_cons_self) hwithin, hbroken⟩

/-! ### Visits without and with a fault -/

/-- Operands that are visited to their end are visited before the others. -/
theorem visitAll_append {before : List Expr}
    (h : ∀ operand ∈ before, operand.visit = ⟨operand.functionNames, none⟩)
    (others : List Expr) :
    visitAll (before ++ others)
      = ⟨functionNamesAll before ++ (visitAll others).names, (visitAll others).fault?⟩ := by
  induction before with
  | nil => rfl
  | cons operand rest ih =>
    have hrest := ih fun operand hmem => h operand (List.mem_cons_of_mem _ hmem)
    rw [List.cons_append, visitAll, h operand List.mem_cons_self, hrest, functionNamesAll,
      List.append_assoc]
    rfl

/-- Operands that are visited to their end are all visited. -/
theorem visitAll_of_visited {operands : List Expr}
    (h : ∀ operand ∈ operands, operand.visit = ⟨operand.functionNames, none⟩) :
    visitAll operands = ⟨functionNamesAll operands, none⟩ := by
  have hall := visitAll_append h []
  rw [List.append_nil, visitAll, List.append_nil] at hall
  exact hall

/-- The evaluation of a tree without a broken condition reaches every function leaf and meets no
fault. -/
theorem visit_of_unbroken {expr : Expr} (h : expr.Unbroken) :
    expr.visit = ⟨expr.functionNames, none⟩ := by
  induction h with
  | @condition tag operands here below ih =>
    cases tag with
    | unknown text => exact absurd trivial here
    | known operator =>
      rw [visit, visitAll_of_visited ih, Operator.lacks?_of_not_lacksOperands here]
      simp [Visit.andThen, functionNames]
  | leaf here => rfl
  | malformed here => rfl

/-- The evaluation of a tree ends where it stops. This and `visit_of_unbroken` are what ties the
places of faults to evaluations. -/
theorem visit_of_stopsAt {expr : Expr} {names : List String} {fault : EvalFault}
    (h : expr.StopsAt names fault) : expr.visit = ⟨names, some fault⟩ := by
  induction h with
  | unknown text operands => rfl
  | lacking hoperands hlacks =>
    have hvisited := visitAll_of_visited fun operand hmem => visit_of_unbroken (hoperands operand hmem)
    rw [visit, hvisited, Operator.lacks?_of_lacksOperands hlacks]
    simp [Visit.andThen]
  | deeper hbefore _ after ih =>
    -- What stands behind the operand that stops takes no part in the visit.
    have hvisited := visitAll_append fun operand hmem => visit_of_unbroken (hbefore operand hmem)
    rw [visit, hvisited, visitAll, ih]
    rfl

/-- A tree is visited to its end, or it fails at one place. The two cases exclude each other by the
fault of the visit. -/
theorem visitRoot_cases (expr : Expr) :
    ((∀ raw, expr ≠ .malformed raw) ∧ expr.Unbroken ∧
        expr.visitRoot = ⟨expr.functionNames, none⟩) ∨
      ∃ names fault, expr.FailsAfter names fault ∧ expr.visitRoot = ⟨names, some fault⟩ := by
  cases expr with
  | condition tag operands =>
    rcases unbroken_or_stopsAt (.condition tag operands) with hwhole | ⟨names, fault, hstops⟩
    · exact .inl ⟨by simp, hwhole, visit_of_unbroken hwhole⟩
    · exact .inr ⟨names, fault, .inr hstops, visit_of_stopsAt hstops⟩
  | leaf operand => exact .inl ⟨by simp, .leaf not_false, rfl⟩
  | malformed raw => exact .inr ⟨[], .malformedNode, .inl ⟨raw, rfl, rfl, rfl⟩, rfl⟩

/-- A tree that fails at a place is visited up to there. -/
theorem visitRoot_of_failsAfter {expr : Expr} {names : List String} {fault : EvalFault}
    (h : expr.FailsAfter names fault) : expr.visitRoot = ⟨names, some fault⟩ := by
  rcases h with ⟨raw, rfl, rfl, rfl⟩ | hstops
  · rfl
  · have hvisit := visit_of_stopsAt hstops
    cases hstops <;> exact hvisit

/-- A tree that passes the check is evaluated without a fault, and all its function leaves are
reached. -/
theorem visitRoot_of_check {expr : Expr} (h : expr.check = .ok ()) :
    expr.visitRoot = ⟨expr.functionNames, none⟩ := by
  obtain ⟨hroot, hsound⟩ := (check_eq_ok_iff expr).1 h
  -- A root that passes is a condition.
  cases expr with
  | condition tag operands => exact visit_of_unbroken (unbroken_of_sound hsound)
  | leaf operand => cases hroot
  | malformed raw => cases hroot

/-- A tree is evaluated to its end and gives something, or its evaluation ends with the fault that
the tree fails with. The values of the context decide what is given in the first case, and they have
no say in which case it is. -/
theorem run_cases (context : Context σ) (expr : Expr) (start : Run σ) :
    ((∀ raw, expr ≠ .malformed raw) ∧ expr.Unbroken ∧
        expr.visitRoot = ⟨expr.functionNames, none⟩ ∧
        ∃ result, (expr.run context start).1 = .ok result) ∨
      ∃ names fault, expr.FailsAfter names fault ∧ expr.visitRoot = ⟨names, some fault⟩ ∧
        (expr.run context start).1 = .error fault := by
  have hfault := (visitRoot_describes_run context expr start).fault
  rcases visitRoot_cases expr with ⟨hroot, hwhole, hvisit⟩ | ⟨names, fault, hfails, hvisit⟩
  · left
    rw [hvisit] at hfault
    cases hresult : (expr.run context start).1 with
    | error fault =>
      rw [hresult] at hfault
      cases hfault
    | ok result => exact ⟨hroot, hwhole, hvisit, result, rfl⟩
  · right
    rw [hvisit] at hfault
    cases hresult : (expr.run context start).1 with
    | error found =>
      rw [hresult] at hfault
      cases hfault
      exact ⟨names, fault, hfails, hvisit, rfl⟩
    | ok result =>
      rw [hresult] at hfault
      cases hfault

/-- The evaluation of a tree ends with a fault when it fails with it at some place. Which names were
visited before the fault is known too, from the place. -/
theorem run_eq_error_iff (context : Context σ) (expr : Expr) (start : Run σ) (fault : EvalFault) :
    (expr.run context start).1 = .error fault ↔ ∃ names, expr.FailsAfter names fault := by
  rcases run_cases context expr start with
    ⟨-, -, hvisit, result, hresult⟩ | ⟨names, found, hfails, hvisit, hresult⟩
  · rw [hresult]
    -- A tree that fails at some place is visited up to it, and this one was visited to its end.
    refine iff_of_false (by simp) ?_
    rintro ⟨names, hfails⟩
    rw [visitRoot_of_failsAfter hfails] at hvisit
    cases hvisit
  · rw [hresult]
    constructor
    · rintro ⟨⟩
      exact ⟨names, hfails⟩
    · -- A tree is visited in one way, so it fails at no other place.
      rintro ⟨others, hothers⟩
      rw [visitRoot_of_failsAfter hothers] at hvisit
      cases hvisit
      rfl

/-- **Whether a tree can be evaluated, and why not, depends on the tree alone.**

* In any two contexts, whatever their variables are bound to and whatever their functions give,
  raise and change, the tree fails with the same fault or does not fail at all.
* It fails when its root is no node, or when somewhere in it, surplus operands included, there is a
  condition with an unknown operator or with fewer operands than its operator looks at.
* A tree that passes the check decides something in every context. -/
theorem ofResult?_run_eq (expr : Expr) :
    (∀ {σ τ : Type} (context : Context σ) (other : Context τ) (start : Run σ) (run : Run τ),
        EvalFault.ofResult? (expr.run context start).1
          = EvalFault.ofResult? (expr.run other run).1) ∧
      (∀ {σ : Type} (context : Context σ) (start : Run σ),
        (∃ fault, (expr.run context start).1 = .error fault) ↔
          (∃ raw, expr = .malformed raw) ∨ ∃ node : Expr, node.Within expr ∧ node.Broken) ∧
      (expr.check = .ok () → ∀ {σ : Type} (context : Context σ) (start : Run σ),
        ∃ result, (expr.run context start).1 = .ok result) := by
  refine ⟨?_, ?_, ?_⟩
  · intro σ τ context other start run
    rw [(visitRoot_describes_run context expr start).fault,
      (visitRoot_describes_run other expr run).fault]
  · intro σ context start
    rcases run_cases context expr start with
      ⟨hroot, hwhole, -, result, hresult⟩ | ⟨names, fault, hfails, -, hresult⟩
    · have hnone : ¬ ∃ node : Expr, node.Within expr ∧ node.Broken := by
        rintro ⟨node, hwithin, hbroken⟩
        exact everywhere_iff_within.1 hwhole node hwithin hbroken
      rw [hresult]
      simp [hroot, hnone]
    · rw [hresult]
      refine iff_of_true ⟨fault, rfl⟩ ?_
      rcases hfails with ⟨raw, hraw, -⟩ | hstops
      · exact .inl ⟨raw, hraw⟩
      · exact .inr (exists_broken_of_stopsAt hstops)
  · intro hcheck σ context start
    rcases run_cases context expr start with
      ⟨-, -, -, hresult⟩ | ⟨names, fault, -, hvisit, -⟩
    · exact hresult
    · rw [visitRoot_of_check hcheck] at hvisit
      cases hvisit

/-- One function panics and the other one fails. The condition over both passes the check and
decides something. With one of the two operands it is a fault, also as a surplus operand. -/
theorem ofResult?_run_eq_of_panic :
    let boom : Callable Nat := fun count => (.panic, count + 1)
    let off : Callable Nat := fun count => (.failure "offline", count)
    let context := (Context.empty.setFunction "boom" boom).setFunction "off" off
    let whole := Expr.condition (.known .eq) [.leaf (.ofFunction "boom"), .leaf (.ofFunction "off")]
    let lacking := Expr.condition (.known .eq) [.leaf (.ofFunction "boom")]
    let tree := Expr.condition (.known .isNull) [.leaf (.ofFunction "off"), lacking]
    whole.check = .ok () ∧
      (∃ result, (whole.run context (Run.start 0)).1 = .ok result) ∧
      ∃ fault, (tree.run context (Run.start 0)).1 = .error fault := by
  intro boom off context whole lacking tree
  have hlacking : lacking.Broken := .inr ⟨by decide, by decide⟩
  have hwithin : lacking.Within tree :=
    .operand (List.mem_cons_of_mem _ List.mem_cons_self) .root
  obtain ⟨-, -, hpasses⟩ := ofResult?_run_eq whole
  obtain ⟨-, hfails, -⟩ := ofResult?_run_eq tree
  exact ⟨rfl, hpasses rfl context _, (hfails context _).2 (.inr ⟨lacking, hwithin, hlacking⟩)⟩

end Expr

end EdgeGuard
