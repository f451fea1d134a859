import EdgeGuard.Proofs.Eval.Faults

/-!
# `EdgeGuard.Proofs.Eval.Calls`: the calls of an evaluation are known from the tree

No value decides which functions are called. `Expr.functionNames` lists the function leaves of a
tree from the left, and an evaluation calls those of them that the context has, up to the place
where it stops (`Expr.FailsAfter`).

* `functionNames_prefix_of_failsAfter`: what is visited before a fault is the start of the list.
* `evaluate_calls_eq`: the calls of a tree in all contexts that have functions under the same names.
-/

set_option autoImplicit false

namespace EdgeGuard

variable {σ τ : Type}

/-- Contexts with functions under the same names call the same of some names. -/
theorem Context.called_congr {context : Context σ} {other : Context τ}
    (h : ∀ name, (other.function? name).isSome = (context.function? name).isSome)
    (names : List String) : other.called names = context.called names :=
  List.filter_congr fun name _ => h name

namespace Expr

/-- The function leaves of two lists are listed one after the other. -/
theorem functionNamesAll_append (before others : List Expr) :
    functionNamesAll (before ++ others) = functionNamesAll before ++ functionNamesAll others := by
  induction before with
  | nil => rfl
  | cons operand rest ih => rw [List.cons_append, functionNamesAll, functionNamesAll, ih,
      List.append_assoc]

/-- What is visited before the evaluation of a condition stops is the start of its list. The
induction is on the way to the place: in front of it everything is visited, and behind it
nothing. -/
theorem functionNames_prefix_of_stopsAt {expr : Expr} {names : List String} {fault : EvalFault}
    (h : expr.StopsAt names fault) : names <+: expr.functionNames := by
  induction h with
  | unknown text operands => exact List.nil_prefix
  | lacking hoperands hlacks => exact List.prefix_refl _
  | @deeper operator before operand names fault hbefore _ after ih =>
    -- The list goes on behind the names of the operand that stops.
    obtain ⟨behind, hbehind⟩ := ih
    refine ⟨behind ++ functionNamesAll after, ?_⟩
    rw [functionNames, functionNamesAll_append, functionNamesAll, ← hbehind]
    simp only [List.append_assoc]

/-- What is visited before the evaluation of a tree stops is the start of its list. -/
theorem functionNames_prefix_of_failsAfter {expr : Expr} {names : List String} {fault : EvalFault}
    (h : expr.FailsAfter names fault) : names <+: expr.functionNames := by
  rcases h with ⟨raw, rfl, rfl, rfl⟩ | hstops
  · exact List.nil_prefix
  · exact functionNames_prefix_of_stopsAt hstops

/-- **No value decides which functions are called.** Let a tree be evaluated in a context, whatever
its variables are bound to and whatever its functions give, raise and change.

* Every other context that has functions under the same names makes the same calls in the same
  order.
* The calls are the start of the list of all function leaves that the context has, from the left.
  Without a fault they are the whole list.
* With a fault they are those of the leaves that are visited before the tree fails: an unknown
  operator stops before its own operands, a missing operand behind all operands of its node. -/
theorem evaluate_calls_eq (expr : Expr) (context : Context σ) (start : Run σ) :
    (∀ {τ : Type} (other : Context τ) (run : Run τ),
        (∀ name, (other.function? name).isSome = (context.function? name).isSome) →
        run.calls = start.calls →
        (expr.evaluate other run).2.calls = (expr.evaluate context start).2.calls) ∧
      ∃ made, (expr.evaluate context start).2.calls = start.calls ++ made ∧
        made <+: context.called expr.functionNames ∧
        ((∃ result, (expr.run context start).1 = .ok result) →
          made = context.called expr.functionNames) ∧
        (∀ fault, (expr.run context start).1 = .error fault ↔
          ∃ names, expr.FailsAfter names fault) ∧
        ∀ names fault, expr.FailsAfter names fault → made = context.called names := by
  obtain ⟨hcalls, -⟩ := evaluate_calls_world context expr start
  constructor
  · -- The calls are a function of the tree and of the names of the context.
    intro τ other run hfunctions hpast
    obtain ⟨hother, -⟩ := evaluate_calls_world other expr run
    rw [hother, hcalls, hpast, Context.called_congr hfunctions]
  · refine ⟨context.called expr.visitRoot.names, hcalls, ?_, ?_, run_eq_error_iff context expr start,
      ?_⟩
    · -- A tree is visited to its end or up to the place of its fault.
      rcases visitRoot_cases expr with ⟨-, -, hvisit⟩ | ⟨names, fault, hfails, hvisit⟩
      · have hnames : expr.visitRoot.names = expr.functionNames := by rw [hvisit]
        exact hnames ▸ List.prefix_refl _
      · rw [hvisit]
        exact (functionNames_prefix_of_failsAfter hfails).filter _
    · rintro ⟨result, hresult⟩
      rcases run_cases context expr start with ⟨-, -, hvisit, -⟩ | ⟨names, fault, -, -, herror⟩
      · rw [hvisit]
      · rw [hresult] at herror
        cases herror
    · intro names fault hfails
      rw [visitRoot_of_failsAfter hfails]

/-- The function counts its calls in one context and panics in the other. Both call it for the
operand before the one that stops and for the operands of that one, and not behind. -/
theorem evaluate_calls_eq_of_lacking :
    let count : Callable Nat := fun calls => (.value (.bool false), calls + 1)
    let boom : Callable Unit := fun world => (.panic, world)
    let context := Context.empty.setFunction "f" count
    let other := Context.empty.setFunction "f" boom
    let call := Expr.leaf (.ofFunction "f")
    let tree := Expr.condition (.known .and) [call, .condition (.known .gt) [call], call]
    tree.FailsAfter ["f", "f"] (.missingOperand .gt 1) ∧
      context.called tree.functionNames = ["f", "f", "f"] ∧
      (tree.evaluate context (Run.start 0)).2.calls = ["f", "f"] ∧
      (tree.evaluate other (Run.start ())).2.calls = ["f", "f"] := by
  intro count boom context other call tree
  have hall : ∀ operand ∈ [call], operand.Unbroken := by
    intro operand hmem
    rw [List.mem_singleton.1 hmem]
    exact .leaf not_false
  have hlacking : (Expr.condition (.known .gt) [call]).StopsAt ["f"] (.missingOperand .gt 1) :=
    .lacking hall (.inr ⟨by decide, by decide⟩)
  have hplace : tree.FailsAfter ["f", "f"] (.missingOperand .gt 1) :=
    .inr (.deeper hall hlacking [call])
  have hfunctions : ∀ name, (other.function? name).isSome = (context.function? name).isSome := by
    intro name
    simp only [other, context, Context.function?, Context.setFunction, Bindings.get?_insert]
    split <;> rfl
  obtain ⟨hsame, made, hcalls, -, -, -, hmade⟩ := evaluate_calls_eq tree context (Run.start 0)
  have hevaluated : (tree.evaluate context (Run.start 0)).2.calls = ["f", "f"] := by
    rw [hcalls, hmade _ _ hplace]
    rfl
  exact ⟨hplace, rfl, hevaluated, (hsame other (Run.start ()) hfunctions rfl).trans hevaluated⟩

end Expr

end EdgeGuard
