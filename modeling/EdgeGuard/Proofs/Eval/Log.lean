import EdgeGuard.Proofs.Eval.Visits

/-!
# `EdgeGuard.Proofs.Eval.Log`: what an evaluation notes in the log

An operand that cannot be resolved counts as null, and that is noted. `Context.Degrades` lists the
causes: a function leaf without a name, without a function of its name, with a call that fails and
with a call that panics, and a value that is no node. Which of them applies may depend on the state
of the world in which the operand is visited, and that state is known from the leaves before it.

`Expr.visited` lists the operands that an evaluation visits, up to the place where it stops, and
`Context.Noted` goes along this list: each operand that degrades has one notice, and no other
operand has any.

* `visited_prefix_leaves`, `visited_eq_leaves`: the visited operands are the first leaves of the
  tree, and all of them when nothing stops the evaluation.
* `operandValue_logs`: an operand adds to the log what is noted of the operands in it.
* `evaluate_log_noted`: the log of a decision, with its last entry.
-/

set_option autoImplicit false

namespace EdgeGuard

variable {σ : Type}

namespace Context

/-- An operand that is visited in a state of the world degrades to null, with what is noted. -/
inductive Degrades (context : Context σ) (world : σ) : Expr → Notice → Prop
  /-- The leaf of a function has no name. -/
  | unnamed {operand : Operand} (hkind : operand.kind = .function)
      (hname : operand.name? = none) :
      Degrades context world (.leaf operand) (.unnamedFunction operand.value)
  /-- There is no function of the name. -/
  | undefined {operand : Operand} {name : String} (hkind : operand.kind = .function)
      (hname : operand.name? = some name) (hfunction : context.function? name = none) :
      Degrades context world (.leaf operand) (.undefinedFunction name)
  /-- The call fails. -/
  | failed {operand : Operand} {name message : String} {function : Callable σ}
      (hkind : operand.kind = .function) (hname : operand.name? = some name)
      (hfunction : context.function? name = some function)
      (hcall : (function world).1 = .failure message) :
      Degrades context world (.leaf operand) (.failedFunction name message)
  /-- The call panics. -/
  | panicked {operand : Operand} {name : String} {function : Callable σ}
      (hkind : operand.kind = .function) (hname : operand.name? = some name)
      (hfunction : context.function? name = some function)
      (hcall : (function world).1 = .panic) :
      Degrades context world (.leaf operand) (.panickedFunction name)
  /-- The operand is no node. -/
  | malformed (raw : Json) : Degrades context world (.malformed raw) (.malformedOperand raw)

/-- The notices of operands that are visited one after the other, from a state of the world: one of
each operand that degrades at its turn, and none of the others. -/
inductive Noted (context : Context σ) : List Expr → σ → List Notice → Prop
  | nil (world : σ) : Noted context [] world []
  | degraded {node : Expr} {rest : List Expr} {world : σ} {notice : Notice}
      {notices : List Notice} (hnode : context.Degrades world node notice)
      (hrest : Noted context rest (context.worldAfter node.functionNames world) notices) :
      Noted context (node :: rest) world (notice :: notices)
  | resolved {node : Expr} {rest : List Expr} {world : σ} {notices : List Notice}
      (hnode : ∀ notice, ¬ context.Degrades world node notice)
      (hrest : Noted context rest (context.worldAfter node.functionNames world) notices) :
      Noted context (node :: rest) world notices

variable {context : Context σ} {world : σ}

/-- There is one cause at most. -/
theorem Degrades.unique {node : Expr} {a b : Notice} (ha : context.Degrades world node a)
    (hb : context.Degrades world node b) : a = b := by
  cases ha <;> cases hb <;> simp_all

/-- A function that gives nothing is a warning. A malformed operand is a detail. -/
theorem Degrades.level_eq {node : Expr} {notice : Notice}
    (h : context.Degrades world node notice) :
    notice.level = match node with
      | .malformed _ => .debug
      | _ => .warn := by
  cases h <;> rfl

/-- The notices are known from the operands and the state of the world. So the log of a decision is
determined, and not only bounded, by the tree and the world. -/
theorem Noted.unique {nodes : List Expr} {notices others : List Notice}
    (h : context.Noted nodes world notices) (hothers : context.Noted nodes world others) :
    notices = others := by
  -- At each operand the two derivations agree: it degrades in both or in none, by
  -- `Degrades.unique`.
  induction h generalizing others with
  | nil world =>
    cases hothers
    rfl
  | degraded hnode _ ih =>
    cases hothers with
    | degraded hother hrest => rw [hnode.unique hother, ih hrest]
    | resolved hnone _ => exact absurd hnode (hnone _)
  | resolved hnone _ ih =>
    cases hothers with
    | degraded hother _ => exact absurd hother (hnone _)
    | resolved _ hrest => exact ih hrest

/-- Behind some operands the others are visited in the state of the world that these left. Which
functions the first ones called is known from the tree, so the world between the two lists is
too. -/
theorem Noted.append {nodes others : List Expr} {notices more : List Notice}
    (h : context.Noted nodes world notices)
    (hothers : context.Noted others
      (context.worldAfter (nodes.flatMap Expr.functionNames) world) more) :
    context.Noted (nodes ++ others) world (notices ++ more) := by
  -- The induction is on the first list. The second one starts in the world that the first list
  -- leaves, so the hypothesis is moved along by one operand at each step.
  induction h with
  | nil world => exact hothers
  | degraded hnode _ ih =>
    rw [List.flatMap_cons, worldAfter_append] at hothers
    exact .degraded hnode (ih hothers)
  | resolved hnone _ ih =>
    rw [List.flatMap_cons, worldAfter_append] at hothers
    exact .resolved hnone (ih hothers)

/-- One operand that degrades is noted by itself. -/
theorem Noted.of_degrades {node : Expr} {notice : Notice}
    (h : context.Degrades world node notice) : context.Noted [node] world [notice] :=
  .degraded h (.nil _)

/-- One operand that does not degrade leaves no notice. -/
theorem Noted.of_not_degrades {node : Expr}
    (h : ∀ notice, ¬ context.Degrades world node notice) : context.Noted [node] world [] :=
  .resolved h (.nil _)

/-- No operand is an error. -/
theorem Noted.level_ne_error {nodes : List Expr} {notices : List Notice}
    (h : context.Noted nodes world notices) :
    ∀ notice ∈ notices, notice.level ≠ .error := by
  induction h with
  | nil world =>
    intro notice hmem
    exact absurd hmem List.not_mem_nil
  | degraded hnode _ ih =>
    refine List.forall_mem_cons.2 ⟨?_, ih⟩
    rw [hnode.level_eq]
    split <;> simp
  | resolved _ _ ih => exact ih

end Context

namespace Expr

/-! ### Visited operands -/

mutual

/-- The leaves and malformed nodes of a tree, from the left. -/
def leaves : Expr → List Expr
  | .condition _ operands => leavesAll operands
  | .leaf operand => [.leaf operand]
  | .malformed raw => [.malformed raw]

def leavesAll : List Expr → List Expr
  | [] => []
  | operand :: rest => leaves operand ++ leavesAll rest

end

mutual

/-- Those of them that the evaluation of an operand visits. An unknown operator comes before the
operands of its condition. -/
def visitedIn : Expr → List Expr
  | .condition tag operands =>
    match tag with
    | .unknown _ => []
    | .known _ => visitedInAll operands
  | .leaf operand => [.leaf operand]
  | .malformed raw => [.malformed raw]

/-- Those that the evaluation of operands visits. Nothing is visited behind an operand with a fault.
The fault of an operand is known from its visit, without the context. -/
def visitedInAll : List Expr → List Expr
  | [] => []
  | operand :: rest =>
    match operand.visit.fault? with
    | some _ => visitedIn operand
    | none => visitedIn operand ++ visitedInAll rest

end

/-- The operands that the evaluation of a tree visits. A malformed root is no operand. -/
def visited : Expr → List Expr
  | .malformed _ => []
  | expr => visitedIn expr

/-- A fault in the first operand ends the visit with what is visited in it. -/
theorem visitedInAll_of_fault {operand : Expr} {fault : EvalFault}
    (h : operand.visit.fault? = some fault) (rest : List Expr) :
    visitedInAll (operand :: rest) = operand.visitedIn := by
  rw [visitedInAll]
  simp only [h]

/-- Without a fault in the first operand the others are visited behind it. -/
theorem visitedInAll_of_no_fault {operand : Expr} (h : operand.visit.fault? = none)
    (rest : List Expr) :
    visitedInAll (operand :: rest) = operand.visitedIn ++ visitedInAll rest := by
  rw [visitedInAll]
  simp only [h]

/-- The names of the visited functions are those of the visit. -/
theorem flatMap_visitedInAll {operands : List Expr}
    (h : ∀ operand ∈ operands, operand.visitedIn.flatMap functionNames = operand.visit.names) :
    (visitedInAll operands).flatMap functionNames = (visitAll operands).names := by
  induction operands with
  | nil => rfl
  | cons operand rest ih =>
    obtain ⟨hfirst, hrest⟩ := List.forall_mem_cons.1 h
    rw [visitAll]
    cases hfault : operand.visit.fault? with
    | some fault =>
      rw [visitedInAll_of_fault hfault, hfirst]
      simp [Visit.andThen, hfault]
    | none =>
      rw [visitedInAll_of_no_fault hfault, List.flatMap_append, hfirst, ih hrest]
      simp [Visit.andThen, hfault]

/-- The functions of the operands that are visited are those that the visit lists. So the world at
the turn of each is known from the operands before it. -/
theorem flatMap_visitedIn (expr : Expr) :
    expr.visitedIn.flatMap functionNames = expr.visit.names := by
  induction expr with
  | condition tag operands ih =>
    cases tag with
    | unknown text => rfl
    | known operator =>
      -- That the operator lacks operands is found behind them and visits nothing more.
      show (visitedInAll operands).flatMap functionNames = _
      rw [flatMap_visitedInAll ih, visit, Visit.andThen]
      cases (visitAll operands).fault? <;> simp
  | leaf operand => simp [visitedIn, visit, functionNames]
  | malformed raw => rfl

/-- The same for a whole tree. A malformed root visits nothing. -/
theorem flatMap_visited (expr : Expr) :
    expr.visited.flatMap functionNames = expr.visitRoot.names := by
  cases expr with
  | malformed raw => rfl
  | condition tag operands => exact flatMap_visitedIn _
  | leaf operand => exact flatMap_visitedIn _

/-- The visited operands come first among the leaves, and nothing is left out without a fault. -/
theorem visitedInAll_leavesAll {operands : List Expr}
    (h : ∀ operand ∈ operands, operand.visitedIn <+: operand.leaves ∧
      (operand.visit.fault? = none → operand.visitedIn = operand.leaves)) :
    visitedInAll operands <+: leavesAll operands ∧
      ((visitAll operands).fault? = none → visitedInAll operands = leavesAll operands) := by
  -- Both parts go through the induction together: what is visited behind an operand comes next
  -- only because all leaves of the operand were visited.
  induction operands with
  | nil => exact ⟨List.prefix_refl _, fun _ => rfl⟩
  | cons operand rest ih =>
    obtain ⟨⟨hfirst, hwhole⟩, hothers⟩ := List.forall_mem_cons.1 h
    obtain ⟨hrest, hrestWhole⟩ := ih hothers
    rw [leavesAll, visitAll]
    cases hfault : operand.visit.fault? with
    | some fault =>
      rw [visitedInAll_of_fault hfault]
      refine ⟨hfirst.trans (List.prefix_append _ _), fun hnone => ?_⟩
      simp [Visit.andThen, hfault] at hnone
    | none =>
      rw [visitedInAll_of_no_fault hfault, hwhole hfault]
      refine ⟨(List.prefix_append_right_inj _).2 hrest, fun hnone => ?_⟩
      rw [hrestWhole]
      simpa [Visit.andThen, hfault] using hnone

/-- What an operand visits are its first leaves, and all of them when no fault ends the visit. A
condition may stop before its last operand, and the leaves behind are not visited then. -/
theorem visitedIn_leaves (expr : Expr) :
    expr.visitedIn <+: expr.leaves ∧
      (expr.visit.fault? = none → expr.visitedIn = expr.leaves) := by
  induction expr with
  | condition tag operands ih =>
    cases tag with
    | unknown text => exact ⟨List.nil_prefix, by simp [visit]⟩
    | known operator =>
      obtain ⟨hinitial, hwhole⟩ := visitedInAll_leavesAll ih
      refine ⟨hinitial, fun hnone => hwhole ?_⟩
      rw [visit, Visit.andThen] at hnone
      split at hnone
      · exact hnone
      · assumption
  | leaf operand => exact ⟨List.prefix_refl _, fun _ => rfl⟩
  | malformed raw => exact ⟨List.prefix_refl _, fun _ => rfl⟩

/-- The evaluation of a tree visits its first leaves. -/
theorem visited_prefix_leaves (expr : Expr) : expr.visited <+: expr.leaves := by
  cases expr with
  | malformed raw => exact List.nil_prefix
  | condition tag operands => exact (visitedIn_leaves _).1
  | leaf operand => exact (visitedIn_leaves _).1

/-- Without a fault it visits all of them. -/
theorem visited_eq_leaves {expr : Expr} (h : expr.visitRoot.fault? = none) :
    expr.visited = expr.leaves := by
  cases expr with
  | malformed raw => exact absurd h (by simp [visitRoot])
  | condition tag operands => exact (visitedIn_leaves _).2 h
  | leaf operand => exact (visitedIn_leaves _).2 h

end Expr

/-! ### What is added to the log -/

/-- Between two runs the log grows by what is noted of visited operands. Nothing is ever taken from
the log, so what is added is a list behind the old one. -/
def Run.Logs (context : Context σ) (nodes : List Expr) (before after : Run σ) : Prop :=
  ∃ notices, context.Noted nodes before.world notices ∧ after.log = before.log ++ notices

variable {context : Context σ}

/-- Two evaluations in a row log what is noted of the operands of both. The second one has to start
in the world that the operands of the first one leave. -/
theorem Run.Logs.trans {nodes others : List Expr} {before middle after : Run σ}
    (h : Run.Logs context nodes before middle)
    (hworld : middle.world
      = context.worldAfter (nodes.flatMap Expr.functionNames) before.world)
    (hothers : Run.Logs context others middle after) :
    Run.Logs context (nodes ++ others) before after := by
  obtain ⟨notices, hnoted, hlog⟩ := h
  obtain ⟨more, hmore, hrest⟩ := hothers
  rw [hworld] at hmore
  refine ⟨notices ++ more, hnoted.append hmore, ?_⟩
  rw [hrest, hlog, List.append_assoc]

/-- A leaf is resolved with one notice when it degrades, and with none otherwise. The cases are
those of `Context.Degrades`, and a leaf that is no function degrades in none of them. -/
theorem Operand.resolve_logs (context : Context σ) (operand : Operand) (run : Run σ) :
    Run.Logs context [.leaf operand] run (operand.resolve context run).2 := by
  -- Only the leaf of a function degrades.
  have hother (hkind : operand.kind ≠ .function) :
      Run.Logs context [.leaf operand] run run := by
    refine ⟨[], .of_not_degrades fun notice h => ?_, by simp⟩
    cases h <;> exact hkind ‹_›
  unfold resolve
  cases hkind : operand.kind with
  | constant => exact hother (by simp [hkind])
  | «variable» => exact hother (by simp [hkind])
  | function =>
    show Run.Logs context _ run (operand.resolveFunction context run).2
    cases hname : operand.name? with
    | none =>
      simp only [resolveFunction, hname]
      exact ⟨_, .of_degrades (.unnamed hkind hname), rfl⟩
    | some name =>
      cases hfunction : context.function? name with
      | none =>
        rw [resolveFunction_of_none hname hfunction]
        exact ⟨_, .of_degrades (.undefined hkind hname hfunction), rfl⟩
      | some function =>
        rw [resolveFunction_of_some hname hfunction]
        cases hcall : (function run.world).1 with
        | value result =>
          refine ⟨[], .of_not_degrades fun notice h => ?_, ?_⟩
          · cases h <;> simp_all
          · simp [Run.call, hcall, settle]
        | failure message =>
          refine ⟨_, .of_degrades (.failed hkind hname hfunction hcall), ?_⟩
          simp [Run.call, hcall, settle, Run.note]
        | panic =>
          refine ⟨_, .of_degrades (.panicked hkind hname hfunction hcall), ?_⟩
          simp [Run.call, hcall, settle, Run.note]

namespace Expr

/-- Operands add to the log what each of them adds, up to the first fault. The world at the turn of
each operand is the one that `Context.Noted` goes along with. -/
theorem operandValues_logs {operands : List Expr}
    (h : ∀ operand ∈ operands, ∀ run,
      Run.Logs context operand.visitedIn run (operandValue context operand run).2)
    (run : Run σ) :
    Run.Logs context (visitedInAll operands) run (operandValues context operands run).2 := by
  induction operands generalizing run with
  | nil => exact ⟨[], .nil _, by simp [operandValues]⟩
  | cons operand rest ih =>
    have hfirst := h operand List.mem_cons_self run
    have hvisit := visit_describes_operandValue context operand run
    cases hvalue : (operandValue context operand run).1 with
    | error fault =>
      have hfault : operand.visit.fault? = some fault := by rw [← hvisit.fault, hvalue]; rfl
      rw [visitedInAll_of_fault hfault, operandValues_cons_of_error hvalue]
      exact hfirst
    | ok value =>
      have hfault : operand.visit.fault? = none := by rw [← hvisit.fault, hvalue]; rfl
      -- The next operand is visited in the world that the visit of this one leaves.
      have hworld := hvisit.world
      rw [← flatMap_visitedIn] at hworld
      rw [visitedInAll_of_no_fault hfault, operandValues_cons_of_ok hvalue]
      exact hfirst.trans hworld (ih (fun operand hmem => h operand (List.mem_cons_of_mem _ hmem)) _)

/-- A condition adds to the log what its operands add. Its operator adds nothing. -/
theorem run_condition_logs {operands : List Expr}
    (h : ∀ operand ∈ operands, ∀ run,
      Run.Logs context operand.visitedIn run (operandValue context operand run).2)
    (tag : OperatorTag) (run : Run σ) :
    Run.Logs context (Expr.condition tag operands).visitedIn run
      ((Expr.condition tag operands).run context run).2 := by
  cases tag with
  | unknown text => exact ⟨[], .nil _, by simp [Expr.run]⟩
  | known operator =>
    rw [run_known]
    exact operandValues_logs h run

/-- An operand adds to the log what is noted of the operands that are visited in it. -/
theorem operandValue_logs (context : Context σ) (expr : Expr) (run : Run σ) :
    Run.Logs context expr.visitedIn run (operandValue context expr run).2 := by
  induction expr generalizing run with
  | condition tag operands ih =>
    rw [operandValue_condition]
    exact run_condition_logs ih tag run
  | leaf operand => exact operand.resolve_logs context run
  | malformed raw => exact ⟨_, .of_degrades (.malformed raw), rfl⟩

/-- The evaluation of a tree adds to the log what is noted of the operands that it visits. -/
theorem run_logs (context : Context σ) (expr : Expr) (run : Run σ) :
    Run.Logs context expr.visited run (expr.run context run).2 := by
  cases expr with
  | condition tag operands =>
    exact run_condition_logs (fun operand _ => operandValue_logs context operand) tag run
  | leaf operand => exact operand.resolve_logs context run
  | malformed raw => exact ⟨[], .nil _, by simp [Expr.run]⟩

/-- An operand that degrades has the value null. -/
theorem operandValue_of_degrades {node : Expr} {notice : Notice} {run : Run σ}
    (h : context.Degrades run.world node notice) :
    (operandValue context node run).1 = .ok .null := by
  cases h with
  | unnamed hkind hname =>
    simp [operandValue, Operand.resolve, hkind, Operand.resolveFunction, hname]
  | undefined hkind hname hfunction =>
    simp [operandValue, Operand.resolve, hkind, Operand.resolveFunction, hname, hfunction]
  | failed hkind hname hfunction hcall =>
    simp [operandValue, Operand.resolve, hkind, Operand.resolveFunction, hname, hfunction, Run.call,
      hcall, Operand.settle]
  | panicked hkind hname hfunction hcall =>
    simp [operandValue, Operand.resolve, hkind, Operand.resolveFunction, hname, hfunction, Run.call,
      hcall, Operand.settle]
  | malformed raw => rfl

/-- A decision ends with an error when the evaluation failed, and with nothing otherwise. -/
theorem evaluate_log_cases (context : Context σ) (expr : Expr) (start : Run σ) :
    (∃ value, (expr.run context start).1 = .ok value ∧
        expr.evaluate context start = (value, (expr.run context start).2)) ∨
      ∃ fault, (expr.run context start).1 = .error fault ∧
        expr.evaluate context start
          = (false, (expr.run context start).2.note (.evaluationFailed fault)) := by
  rw [evaluate]
  rcases expr.run context start with ⟨fault | value, after⟩
  · exact .inr ⟨fault, rfl, rfl⟩
  · exact .inl ⟨value, rfl, rfl⟩

/-- **Nothing degrades in silence.** Let a tree be decided in a context, whatever its functions
give, raise and change.

* The log grows by the notices of the visited operands, in the order of the visit: one of each
  function leaf that is null because it has no name, no function, or a call that fails or panics,
  and one of each malformed operand. Behind them stands one error with the fault when the evaluation
  failed, and the decision is false then. No other entry is an error.
* The visited operands are the first leaves of the tree, and all of them unless the evaluation
  failed. The calls are those of the visited operands.
* An operand that degrades has the value null. It is a warning for the leaf of a function, and a
  detail for a value that is no node. -/
theorem evaluate_log_noted (context : Context σ) (expr : Expr) (start : Run σ) :
    let result := (expr.run context start).1
    let decided := expr.evaluate context start
    (∃ notices ending,
        decided.2.log = start.log ++ notices ++ ending ∧
        context.Noted expr.visited start.world notices ∧
        (∀ others, context.Noted expr.visited start.world others → others = notices) ∧
        ((∃ value, result = .ok value ∧ decided.1 = value ∧ ending = []) ∨
          ∃ fault, result = .error fault ∧ decided.1 = false ∧
            ending = [.evaluationFailed fault]) ∧
        (notices ++ ending).filter (fun notice => notice.level = .error) = ending) ∧
      expr.visited <+: expr.leaves ∧
      ((∃ value, result = .ok value) → expr.visited = expr.leaves) ∧
      decided.2.calls = start.calls ++ context.called (expr.visited.flatMap functionNames) ∧
      ∀ (run : Run σ) (node : Expr) (notice : Notice), context.Degrades run.world node notice →
        (operandValue context node run).1 = .ok .null ∧
          ((∃ operand, node = .leaf operand ∧ notice.level = .warn) ∨
            ∃ raw, node = .malformed raw ∧ notice.level = .debug) := by
  intro result decided
  obtain ⟨hcalls, -⟩ := evaluate_calls_world context expr start
  have hfault := (visitRoot_describes_run context expr start).fault
  refine ⟨?_, visited_prefix_leaves expr, ?_, ?_, ?_⟩
  · obtain ⟨notices, hnoted, hlog⟩ := run_logs context expr start
    -- No operand is noted as an error, so the last entry is the only one.
    have hnone : notices.filter (fun notice => notice.level = .error) = [] := by
      rw [List.filter_eq_nil_iff]
      intro notice hmem
      simpa using hnoted.level_ne_error notice hmem
    have hunique : ∀ others, context.Noted expr.visited start.world others → others = notices :=
      fun others hothers => hothers.unique hnoted
    rcases evaluate_log_cases context expr start with ⟨value, hvalue, hdecided⟩ |
      ⟨fault, hfailed, hdecided⟩
    · refine ⟨notices, [], ?_, hnoted, hunique, .inl ⟨value, hvalue, ?_, rfl⟩, ?_⟩
      · show (expr.evaluate context start).2.log = _
        rw [hdecided, List.append_nil]
        exact hlog
      · show (expr.evaluate context start).1 = _
        rw [hdecided]
      · rw [List.append_nil, hnone]
    · refine ⟨notices, [.evaluationFailed fault], ?_, hnoted, hunique,
        .inr ⟨fault, hfailed, ?_, rfl⟩, ?_⟩
      · show (expr.evaluate context start).2.log = _
        rw [hdecided, ← hlog]
        rfl
      · show (expr.evaluate context start).1 = _
        rw [hdecided]
      · rw [List.filter_append, hnone]
        rfl
  · rintro ⟨value, hvalue⟩
    refine visited_eq_leaves (hfault.symm.trans ?_)
    show EvalFault.ofResult? result = none
    rw [hvalue]
    rfl
  · rw [flatMap_visited]
    exact hcalls
  · intro run node notice h
    refine ⟨operandValue_of_degrades h, ?_⟩
    cases h with
    | malformed raw => exact .inr ⟨raw, rfl, rfl⟩
    | _ => exact .inl ⟨_, rfl, rfl⟩

/-- Each cause of a degradation has its notice, and the call that gives a value has none. The last
condition lacks an operand, so the leaf behind it is not visited. -/
theorem evaluate_log_noted_of_causes :
    let count : Callable Nat := fun calls => (.value .null, calls + 1)
    let off : Callable Nat := fun calls => (.failure "offline", calls)
    let boom : Callable Nat := fun calls => (.panic, calls)
    let context := ((Context.empty.setFunction "count" count).setFunction "off" off).setFunction
      "boom" boom
    let call := fun name => Expr.leaf (.ofFunction name)
    let unnamed := Expr.leaf ⟨.function, .arr [], none⟩
    let tree := Expr.condition (.known .or) [call "off", .malformed .null, unnamed, call "count",
      call "gone", .condition (.known .gt) [call "boom"], call "off"]
    let decided := tree.evaluate context (Run.start 0)
    tree.visited <+: tree.leaves ∧ decided.1 = false ∧
      decided.2.calls = ["off", "count", "boom"] ∧
      decided.2.log = [.failedFunction "off" "offline", .malformedOperand .null,
        .unnamedFunction (.arr []), .undefinedFunction "gone", .panickedFunction "boom",
        .evaluationFailed (.missingOperand .gt 1)] ∧
      (operandValue context (call "gone") (Run.start 0)).1 = .ok .null := by
  intro count off boom context call unnamed tree decided
  obtain ⟨⟨notices, ending, hlog, -, hunique, hending, -⟩, hinitial, -, hcalls, hnull⟩ :=
    evaluate_log_noted context tree (Run.start 0)
  -- The call of `count` gives null, but it gives something.
  have hcount : ∀ notice, ¬ context.Degrades 0 (call "count") notice := by
    intro notice h
    cases h with
    | unnamed _ hname => cases hname
    | undefined _ hname hfunction =>
      cases hname
      cases hfunction
    | failed _ hname hfunction hcall =>
      cases hname
      cases hfunction
      cases hcall
    | panicked _ hname hfunction hcall =>
      cases hname
      cases hfunction
      cases hcall
  have hnoted : context.Noted tree.visited 0 [.failedFunction "off" "offline",
      .malformedOperand .null, .unnamedFunction (.arr []), .undefinedFunction "gone",
      .panickedFunction "boom"] :=
    .degraded (.failed rfl rfl rfl rfl) (.degraded (.malformed _) (.degraded (.unnamed rfl rfl)
      (.resolved hcount (.degraded (.undefined rfl rfl rfl) (.degraded (.panicked rfl rfl rfl rfl)
        (.nil _))))))
  have hgone : context.Degrades 0 (call "gone") (.undefinedFunction "gone") :=
    .undefined rfl rfl rfl
  have hfalse : decided.1 = false := rfl
  rcases hending with ⟨value, hvalue, -⟩ | ⟨fault, hfault, -, rfl⟩
  · cases hvalue
  · cases hfault
    rw [← hunique _ hnoted] at hlog
    exact ⟨hinitial, hfalse, hcalls, hlog, (hnull (Run.start 0) _ _ hgone).1⟩

end Expr

end EdgeGuard
