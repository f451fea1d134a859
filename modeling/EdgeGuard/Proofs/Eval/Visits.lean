import EdgeGuard.Eval.Basic
import EdgeGuard.Proofs.Expr.Nodes

/-!
# `EdgeGuard.Proofs.Eval.Visits`: which functions an evaluation calls

How far an evaluation gets can be read off the tree, without the context. `Expr.visit` lists the
names of the function leaves that are reached, from the left, and gives the fault that ends the
evaluation, if there is one. No value takes part in it, so nothing that a function does changes
what is reached behind it.

* `visit_describes_operandValue` and `visitRoot_describes_run`: the evaluation goes the way of the
  visit. It calls the functions of the listed names that the context has, in that order, and ends
  with the listed fault or with a value.
* `operandValue_congr` and `evaluate_congr`: what is decided depends on the state of the world, not
  on the calls and notices of the past.
-/

set_option autoImplicit false

namespace EdgeGuard

variable {σ : Type}

/-! ### Calls in a context -/

namespace Context

/-- Those of some names under which the context has a function. A leaf with another name calls
nothing. -/
def called (context : Context σ) (names : List String) : List String :=
  names.filter fun name => (context.function? name).isSome

/-- The state of the world after a leaf with this name. A leaf without a function of its name leaves
the world as it is, and so does a leaf without a name, which has no entry in a list of names. -/
def worldAfterOne (context : Context σ) (name : String) (world : σ) : σ :=
  match context.function? name with
  | some function => (function world).2
  | none => world

/-- The state of the world after leaves with these names. -/
def worldAfter (context : Context σ) (names : List String) (world : σ) : σ :=
  names.foldl (fun world name => context.worldAfterOne name world) world

/-- Without names nothing is called. -/
@[simp] theorem called_nil (context : Context σ) : context.called [] = [] := rfl

/-- Without names the world stays as it is. -/
@[simp] theorem worldAfter_nil (context : Context σ) (world : σ) :
    context.worldAfter [] world = world := rfl

/-- Two lists of names are called one after the other. So the calls of a tree are put together from
those of its operands. -/
theorem called_append (context : Context σ) (names others : List String) :
    context.called (names ++ others) = context.called names ++ context.called others :=
  List.filter_append ..

/-- The second list of names finds the world as the first one left it. With `called_append` this
makes a list of operands a matter of one operand after the other. -/
theorem worldAfter_append (context : Context σ) (names others : List String) (world : σ) :
    context.worldAfter (names ++ others) world
      = context.worldAfter others (context.worldAfter names world) :=
  List.foldl_append ..

end Context

/-! ### Visits -/

/-- How far an evaluation gets: the names of the function leaves that it reaches, and the fault that
ends it. It is made from the tree alone, and it is the same in every context. -/
structure Visit where
  names : List String
  fault? : Option EvalFault

namespace EvalFault

/-- The fault that an evaluation ends with. -/
def ofResult? {α : Type} : Except EvalFault α → Option EvalFault
  | .ok _ => none
  | .error fault => some fault

/-- What is made of a value does not change the fault. -/
theorem ofResult?_map {α β : Type} (result : Except EvalFault α) (f : α → β) :
    ofResult? (result.map f) = ofResult? result := by
  cases result <;> rfl

end EvalFault

namespace Visit

/-- A visit that is followed by another unless a fault ends it. This is how `operandValues` goes
from one operand to the next. -/
def andThen (first second : Visit) : Visit :=
  match first.fault? with
  | some _ => first
  | none => ⟨first.names ++ second.names, second.fault?⟩

/-- An evaluation from a run goes the way of a visit. The value itself is left out: it is not known
from the tree, and it has no influence on what is visited. -/
structure Describes (visit : Visit) (context : Context σ) (before : Run σ) {α : Type}
    (result : Except EvalFault α × Run σ) : Prop where
  calls : result.2.calls = before.calls ++ context.called visit.names
  world : result.2.world = context.worldAfter visit.names before.world
  fault : EvalFault.ofResult? result.1 = visit.fault?

variable {context : Context σ} {before : Run σ} {α β : Type}

/-- What is not reached behind a fault does not count. -/
theorem Describes.of_error {first : Visit} {result : Except EvalFault α × Run σ}
    {fault : EvalFault} (h : first.Describes context before result)
    (hresult : result.1 = .error fault) (second : Visit) :
    (first.andThen second).Describes context before
      ((.error fault, result.2) : Except EvalFault β × Run σ) := by
  have hfault : first.fault? = some fault := by rw [← h.fault, hresult, EvalFault.ofResult?]
  have heq : first.andThen second = first := by rw [andThen, hfault]
  rw [heq]
  exact ⟨h.calls, h.world, hfault.symm⟩

/-- Two evaluations in a row go the way of two visits in a row. The second evaluation starts in the
run that the first one left, so calls and changes of the world add up. -/
theorem Describes.of_ok {first second : Visit} {result : Except EvalFault α × Run σ} {value : α}
    {next : Except EvalFault β × Run σ} (h : first.Describes context before result)
    (hresult : result.1 = .ok value) (hnext : second.Describes context result.2 next) :
    (first.andThen second).Describes context before next := by
  have hfault : first.fault? = none := by rw [← h.fault, hresult, EvalFault.ofResult?]
  have heq : first.andThen second = ⟨first.names ++ second.names, second.fault?⟩ := by
    rw [andThen, hfault]
  rw [heq]
  refine ⟨?_, ?_, hnext.fault⟩
  · rw [hnext.calls, h.calls, Context.called_append, List.append_assoc]
  · rw [hnext.world, h.world, Context.worldAfter_append]

end Visit

/-! ### Leaves -/

namespace Operand

/-- The name of the function that a leaf stands for, if it stands for one and has a name. -/
def functionNames (operand : Operand) : List String :=
  match operand.kind with
  | .function => operand.name?.toList
  | _ => []

/-- A leaf whose name the context has as a function settles the call of it. With the next lemma
these are the two ways in which a leaf with a name is resolved. -/
theorem resolveFunction_of_some {context : Context σ} {operand : Operand} {name : String}
    {function : Callable σ} (hname : operand.name? = some name)
    (hfunction : context.function? name = some function) (run : Run σ) :
    operand.resolveFunction context run
      = settle name (run.call name function).2 (run.call name function).1 := by
  simp only [resolveFunction, hname, hfunction]

/-- A leaf whose name the context has not as a function calls nothing. -/
theorem resolveFunction_of_none {context : Context σ} {operand : Operand} {name : String}
    (hname : operand.name? = some name) (hfunction : context.function? name = none)
    (run : Run σ) :
    operand.resolveFunction context run = (.null, run.note (.undefinedFunction name)) := by
  simp only [resolveFunction, hname, hfunction]

/-- What a call is settled to leaves the calls and the state of the world as they are. It may add a
notice, which no later leaf can see. -/
theorem settle_calls_world (name : String) (run : Run σ) (outcome : Outcome) :
    (settle name run outcome).2.calls = run.calls ∧
      (settle name run outcome).2.world = run.world := by
  cases outcome <;> exact ⟨rfl, rfl⟩

/-- A leaf that names a function calls it when the context has it. A leaf without a name calls
nothing either, as its list of names is empty. -/
theorem resolveFunction_calls_world (context : Context σ) (operand : Operand) (run : Run σ) :
    (operand.resolveFunction context run).2.calls
        = run.calls ++ context.called operand.name?.toList ∧
      (operand.resolveFunction context run).2.world
        = context.worldAfter operand.name?.toList run.world := by
  cases hname : operand.name? with
  | none => simp [resolveFunction, hname, Run.note]
  | some name =>
    cases hfunction : context.function? name with
    | none =>
      rw [resolveFunction_of_none hname hfunction]
      simp [Run.note, Context.called, Context.worldAfter, Context.worldAfterOne, hfunction]
    | some function =>
      rw [resolveFunction_of_some hname hfunction]
      obtain ⟨hcalls, hworld⟩ :=
        settle_calls_world name (run.call name function).2 (run.call name function).1
      -- The call is what is left: settling it adds a notice at most.
      refine ⟨hcalls.trans ?_, hworld.trans ?_⟩
      · simp [Run.call, Context.called, hfunction]
      · simp [Run.call, Context.worldAfter, Context.worldAfterOne, hfunction]

/-- A leaf is resolved without a fault. -/
theorem resolve_describes (context : Context σ) (operand : Operand) (run : Run σ) {α : Type}
    (outcome : α) :
    (Visit.mk operand.functionNames none).Describes context run
      ((.ok outcome, (operand.resolve context run).2) : Except EvalFault α × Run σ) := by
  obtain ⟨hcalls, hworld⟩ := resolveFunction_calls_world context operand run
  unfold resolve functionNames
  cases operand.kind with
  | constant => exact ⟨by simp, rfl, rfl⟩
  | «variable» => exact ⟨by simp, rfl, rfl⟩
  | function => exact ⟨hcalls, hworld, rfl⟩

/-- The value that a call is settled to depends on its outcome only. -/
theorem settle_value (name : String) (a b : Run σ) (outcome : Outcome) :
    (settle name a outcome).1 = (settle name b outcome).1 := by
  cases outcome <;> rfl

/-- The value of a leaf depends on the outcome of the function that it names, and on nothing else
that a run has. It is more than is needed for runs in one world, where the outcomes are the same.
With functions that always give the same, the worlds may differ. -/
theorem resolve_congr_of_outcome (context : Context σ) (operand : Operand) {a b : Run σ}
    (h : ∀ name function, context.function? name = some function →
      (function a.world).1 = (function b.world).1) :
    (operand.resolve context a).1 = (operand.resolve context b).1 := by
  unfold resolve
  cases operand.kind with
  | constant => rfl
  | «variable» => rfl
  | function =>
    show (operand.resolveFunction context a).1 = (operand.resolveFunction context b).1
    cases hname : operand.name? with
    | none => simp only [resolveFunction, hname]
    | some name =>
      cases hfunction : context.function? name with
      | none =>
        rw [resolveFunction_of_none hname hfunction, resolveFunction_of_none hname hfunction]
      | some function =>
        have houtcome : (a.call name function).1 = (b.call name function).1 :=
          h name function hfunction
        rw [resolveFunction_of_some hname hfunction, resolveFunction_of_some hname hfunction,
          houtcome]
        exact settle_value name _ _ _

/-- The value of a leaf depends on the state of the world only. -/
theorem resolve_congr (context : Context σ) (operand : Operand) {a b : Run σ}
    (h : a.world = b.world) : (operand.resolve context a).1 = (operand.resolve context b).1 :=
  operand.resolve_congr_of_outcome context fun _ _ _ => by rw [h]

end Operand

/-! ### Operators -/

namespace Operator

/-- How many values an operator looks at in any case. This is not the arity of the check: `and` and
`or` are evaluated over no operands at all. -/
def needs : Operator → Nat
  | .and | .or => 0
  | operator => operator.operandCount

/-- The fault of an operator over this number of values, if there are too few. -/
def lacks? (operator : Operator) (count : Nat) : Option EvalFault :=
  if count < operator.needs then some (.missingOperand operator count) else none

/-- An operator that takes one value fails on no values, whatever it decides otherwise. -/
theorem ofResult?_single (operator : Operator) (values : List Json) :
    EvalFault.ofResult? (single operator values)
      = if values.length < 1 then some (.missingOperand operator values.length) else none := by
  cases values with
  | nil => rfl
  | cons value rest =>
    have hlength : ¬ (value :: rest).length < 1 := by simp
    rw [if_neg hlength]
    rfl

/-- An operator that takes two values fails on fewer, and the fault says how many there were. -/
theorem ofResult?_pair (operator : Operator) (values : List Json) :
    EvalFault.ofResult? (pair operator values)
      = if values.length < 2 then some (.missingOperand operator values.length) else none := by
  match values with
  | [] | [_] => rfl
  | left :: right :: rest =>
    have hlength : ¬ (left :: right :: rest).length < 2 := by simp
    rw [if_neg hlength]
    rfl

/-- An operator fails when it lacks values, whatever the values are. So the fault of a condition is
known from the number of its operands, and no value takes part in it. -/
theorem ofResult?_apply (operator : Operator) (values : List Json) :
    EvalFault.ofResult? (operator.apply values) = operator.lacks? values.length := by
  cases operator with
  -- The lists of values are of any length, so none of these lacks one.
  | and | or => simp [apply, EvalFault.ofResult?, lacks?, needs]
  | not | isNull | isNotNull => exact (EvalFault.ofResult?_map _ _).trans (ofResult?_single _ _)
  | _ => exact (EvalFault.ofResult?_map _ _).trans (ofResult?_pair _ _)

end Operator

/-! ### Trees -/

namespace Expr

mutual

/-- The names of all function leaves of a tree, from the left. -/
def functionNames : Expr → List String
  | .condition _ operands => functionNamesAll operands
  | .leaf operand => operand.functionNames
  | .malformed _ => []

def functionNamesAll : List Expr → List String
  | [] => []
  | operand :: rest => functionNames operand ++ functionNamesAll rest

end

mutual

/-- How far the evaluation of an operand gets. For a condition the operands come first, and a
missing one is a fault behind all that are there. -/
def visit : Expr → Visit
  | .condition tag operands =>
    match tag with
    | .unknown text => ⟨[], some (.unknownOperator text)⟩
    | .known operator => (visitAll operands).andThen ⟨[], operator.lacks? operands.length⟩
  | .leaf operand => ⟨operand.functionNames, none⟩
  | .malformed _ => ⟨[], none⟩

/-- How far the evaluation of operands gets. -/
def visitAll : List Expr → Visit
  | [] => ⟨[], none⟩
  | operand :: rest => (visit operand).andThen (visitAll rest)

end

/-- How far the evaluation of a tree gets. Only a malformed root is a fault that a malformed operand
is not. As an operand such a value counts as null. -/
def visitRoot : Expr → Visit
  | .malformed _ => ⟨[], some .malformedNode⟩
  | expr => visit expr

/-- A condition counts the same as an operand and as a root. The decision is a truth value for the
condition around it, and a fault is handed on as it is. -/
theorem operandValue_condition (context : Context σ) (tag : OperatorTag) (operands : List Expr)
    (run : Run σ) :
    operandValue context (.condition tag operands) run
      = (((Expr.condition tag operands).run context run).1.map .bool,
          ((Expr.condition tag operands).run context run).2) := by
  cases tag with
  | unknown text => rfl
  | known operator =>
    rw [operandValue, Expr.run]
    rcases operandValues context operands run with ⟨fault | values, after⟩ <;> rfl

/-- A condition with a known operator gives what the operator decides over the values. All operands
are evaluated, whatever the values of the first ones are: `and` and `or` do not stop early. -/
theorem run_known (context : Context σ) (operator : Operator) (operands : List Expr)
    (run : Run σ) :
    (Expr.condition (.known operator) operands).run context run
      = ((operandValues context operands run).1.bind operator.apply,
          (operandValues context operands run).2) := by
  rw [Expr.run]
  rcases operandValues context operands run with ⟨fault | values, after⟩ <;> rfl

/-- A tree decides what its evaluation gives, and false when that ends with a fault. -/
theorem fst_evaluate (context : Context σ) (expr : Expr) (run : Run σ) :
    (expr.evaluate context run).1 = (expr.run context run).1.toOption.getD false := by
  rw [evaluate]
  rcases expr.run context run with ⟨fault | result, after⟩ <;> rfl

/-- The first fault among operands ends their evaluation. -/
theorem operandValues_cons_of_error {context : Context σ} {operand : Expr} {run : Run σ}
    {fault : EvalFault} (h : (operandValue context operand run).1 = .error fault)
    (rest : List Expr) :
    operandValues context (operand :: rest) run
      = (.error fault, (operandValue context operand run).2) := by
  rw [operandValues]
  rcases hvalue : operandValue context operand run with ⟨outcome, middle⟩
  rw [hvalue] at h
  cases h
  rfl

/-- Behind an operand with a value the others are evaluated. -/
theorem operandValues_cons_of_ok {context : Context σ} {operand : Expr} {run : Run σ}
    {value : Json} (h : (operandValue context operand run).1 = .ok value) (rest : List Expr) :
    operandValues context (operand :: rest) run
      = ((operandValues context rest (operandValue context operand run).2).1.map (value :: ·),
          (operandValues context rest (operandValue context operand run).2).2) := by
  rw [operandValues]
  rcases hvalue : operandValue context operand run with ⟨outcome, middle⟩
  rw [hvalue] at h
  cases h
  rcases hrest : operandValues context rest middle with ⟨fault | values, last⟩ <;>
    simp only [hrest] <;> rfl

/-- A list of operands has values when the first one has, and the others have behind it. It takes a
list of values apart again, for an induction along the list. -/
theorem operandValues_cons_eq_ok {context : Context σ} {operand : Expr} {rest : List Expr}
    {run : Run σ} {values : List Json} (h : (operandValues context (operand :: rest) run).1 = .ok values) :
    ∃ value others, values = value :: others ∧ (operandValue context operand run).1 = .ok value ∧
      (operandValues context rest (operandValue context operand run).2).1 = .ok others := by
  -- A fault in the first operand or behind it would be the fault of the whole list.
  cases hvalue : (operandValue context operand run).1 with
  | error fault =>
    rw [operandValues_cons_of_error hvalue] at h
    cases h
  | ok value =>
    rw [operandValues_cons_of_ok hvalue] at h
    cases hrest : (operandValues context rest (operandValue context operand run).2).1 with
    | error fault =>
      rw [hrest] at h
      cases h
    | ok others =>
      rw [hrest] at h
      cases h
      exact ⟨value, others, rfl, rfl, rfl⟩

/-- There is one value for each operand. So what an operator lacks can be told from the operands,
before there are values. -/
theorem length_of_operandValues {context : Context σ} {operands : List Expr} {run : Run σ}
    {values : List Json} (h : (operandValues context operands run).1 = .ok values) :
    values.length = operands.length := by
  induction operands generalizing run values with
  | nil =>
    rw [operandValues] at h
    cases h
    rfl
  | cons operand rest ih =>
    obtain ⟨value, others, rfl, -, hrest⟩ := operandValues_cons_eq_ok h
    rw [List.length_cons, List.length_cons, ih hrest]

/-- The evaluation of operands goes the way of their visit when that of each operand does. A fault
in an operand ends both at the same place. -/
theorem visitAll_describes {context : Context σ} {operands : List Expr}
    (h : ∀ operand ∈ operands, ∀ run,
      operand.visit.Describes context run (operandValue context operand run))
    (run : Run σ) :
    (visitAll operands).Describes context run (operandValues context operands run) := by
  induction operands generalizing run with
  | nil => exact ⟨by simp [operandValues, visitAll], rfl, rfl⟩
  | cons operand rest ih =>
    have hfirst := h operand List.mem_cons_self run
    rw [visitAll]
    cases hvalue : (operandValue context operand run).1 with
    | error fault =>
      rw [operandValues_cons_of_error hvalue]
      exact hfirst.of_error hvalue _
    | ok value =>
      -- The others are visited in the run that the first operand left, whatever that is.
      have hrest := ih (fun operand hmem => h operand (List.mem_cons_of_mem _ hmem))
        (operandValue context operand run).2
      rw [operandValues_cons_of_ok hvalue]
      have hfault := (EvalFault.ofResult?_map _ (value :: ·)).trans hrest.fault
      exact hfirst.of_ok hvalue ⟨hrest.calls, hrest.world, hfault⟩

/-- The evaluation of a condition goes the way of its visit when that of each operand does. An
unknown operator is a fault before any operand is evaluated, in both. -/
theorem visit_describes_condition {context : Context σ} {operands : List Expr}
    (h : ∀ operand ∈ operands, ∀ run,
      operand.visit.Describes context run (operandValue context operand run))
    (tag : OperatorTag) (run : Run σ) :
    (Expr.condition tag operands).visit.Describes context run
      ((Expr.condition tag operands).run context run) := by
  cases tag with
  | unknown text => exact ⟨by simp [Expr.run, visit], rfl, rfl⟩
  | known operator =>
    have hall := visitAll_describes h run
    rw [run_known, visit]
    cases hvalues : (operandValues context operands run).1 with
    | error fault => exact hall.of_error hvalues _
    | ok values =>
      refine hall.of_ok hvalues ⟨by simp, rfl, ?_⟩
      -- The operator sees values, the visit sees operands, and there are as many of both.
      rw [← length_of_operandValues hvalues]
      exact operator.ofResult?_apply values

/-- The evaluation of an operand goes the way of its visit. The induction is on the tree, with the
lemma for conditions as its one step. -/
theorem visit_describes_operandValue (context : Context σ) (expr : Expr) (run : Run σ) :
    expr.visit.Describes context run (operandValue context expr run) := by
  induction expr generalizing run with
  | condition tag operands ih =>
    -- As an operand a condition gives its truth value as a value, which does not change the fault.
    have hroot := visit_describes_condition ih tag run
    rw [operandValue_condition]
    exact ⟨hroot.calls, hroot.world, (EvalFault.ofResult?_map _ _).trans hroot.fault⟩
  | leaf operand => exact operand.resolve_describes context run _
  | malformed raw => exact ⟨by simp [operandValue, visit, Run.note], rfl, rfl⟩

/-- The evaluation of a tree goes the way of its visit. -/
theorem visitRoot_describes_run (context : Context σ) (expr : Expr) (run : Run σ) :
    expr.visitRoot.Describes context run (expr.run context run) := by
  cases expr with
  | condition tag operands =>
    exact visit_describes_condition (fun operand _ => visit_describes_operandValue context operand)
      tag run
  | leaf operand => exact operand.resolve_describes context run _
  | malformed raw => exact ⟨by simp [Expr.run, visitRoot], rfl, rfl⟩

/-- Deciding a tree calls what its evaluation calls. -/
theorem evaluate_calls_world (context : Context σ) (expr : Expr) (run : Run σ) :
    (expr.evaluate context run).2.calls = run.calls ++ context.called expr.visitRoot.names ∧
      (expr.evaluate context run).2.world
        = context.worldAfter expr.visitRoot.names run.world := by
  have h := visitRoot_describes_run context expr run
  rw [evaluate]
  rcases hrun : expr.run context run with ⟨fault | result, after⟩
  · rw [hrun] at h
    exact ⟨h.calls, h.world⟩
  · rw [hrun] at h
    exact ⟨h.calls, h.world⟩

/-! ### Runs in the same state of the world -/

/-- When each operand has one value in all runs with the same world, so has a list of them. Behind
the first operand the two runs have the same world again, since both made the same calls. -/
theorem operandValues_congr {context : Context σ} {operands : List Expr}
    (h : ∀ operand ∈ operands, ∀ a b : Run σ, a.world = b.world →
      (operandValue context operand a).1 = (operandValue context operand b).1)
    {a b : Run σ} (hworld : a.world = b.world) :
    (operandValues context operands a).1 = (operandValues context operands b).1 := by
  induction operands generalizing a b with
  | nil => rfl
  | cons operand rest ih =>
    have hfirst := h operand List.mem_cons_self a b hworld
    cases hvalue : (operandValue context operand a).1 with
    | error fault =>
      rw [operandValues_cons_of_error hvalue,
        operandValues_cons_of_error (hfirst.symm.trans hvalue)]
    | ok value =>
      -- The operand leaves both runs in one state of the world, the one that its visit gives.
      have hmiddle : (operandValue context operand a).2.world
          = (operandValue context operand b).2.world := by
        rw [(visit_describes_operandValue context operand a).world,
          (visit_describes_operandValue context operand b).world, hworld]
      rw [operandValues_cons_of_ok hvalue, operandValues_cons_of_ok (hfirst.symm.trans hvalue),
        ih (fun operand hmem => h operand (List.mem_cons_of_mem _ hmem)) hmiddle]

/-- When each operand has one value in all runs with the same world, a condition over them decides
the same in these. -/
theorem conditionRun_congr {context : Context σ} {operands : List Expr}
    (h : ∀ operand ∈ operands, ∀ a b : Run σ, a.world = b.world →
      (operandValue context operand a).1 = (operandValue context operand b).1)
    (tag : OperatorTag) {a b : Run σ} (hworld : a.world = b.world) :
    ((Expr.condition tag operands).run context a).1
      = ((Expr.condition tag operands).run context b).1 := by
  cases tag with
  | unknown text => rfl
  | known operator =>
    rw [run_known, run_known, operandValues_congr h hworld]

/-- The value of an operand depends on the state of the world, not on the calls and notices of the
past. Calls and notices are only ever added, and nothing reads them. -/
theorem operandValue_congr (context : Context σ) (expr : Expr) {a b : Run σ}
    (h : a.world = b.world) :
    (operandValue context expr a).1 = (operandValue context expr b).1 := by
  induction expr generalizing a b with
  | condition tag operands ih =>
    rw [operandValue_condition, operandValue_condition]
    exact congrArg (Except.map Json.bool)
      (conditionRun_congr (fun operand hmem a b => ih operand hmem) tag h)
  | leaf operand => exact congrArg Except.ok (operand.resolve_congr context h)
  | malformed raw => rfl

/-- What a tree decides depends on the state of the world, not on the calls and notices of the
past. -/
theorem evaluate_congr (context : Context σ) (expr : Expr) {a b : Run σ} (h : a.world = b.world) :
    (expr.evaluate context a).1 = (expr.evaluate context b).1 := by
  have hrun : (expr.run context a).1 = (expr.run context b).1 := by
    cases expr with
    | condition tag operands =>
      exact conditionRun_congr (fun operand _ a b => operandValue_congr context operand) tag h
    | leaf operand =>
      exact congrArg (fun value => Except.ok value.truthy) (operand.resolve_congr context h)
    | malformed raw => rfl
  rw [fst_evaluate, fst_evaluate, hrun]

end Expr

end EdgeGuard
