import EdgeGuard.Proofs.Eval.Alike
import EdgeGuard.Proofs.Expr.Replace

/-!
# `EdgeGuard.Proofs.Eval.Compose`: a part of a tree counts by its value

In a context whose functions give the same on every call (`Context.Steady`), each part of a tree
has one value, whatever was called before. The part may then be taken out for the constant of this
value, and the tree decides the same, or fails with the same fault.

* `Expr.frozen` has a constant in the place of every variable and function. It does not depend on a
  context any more (`fst_run_frozen`).
* `Expr.Swapped` has another tree in the place of one part. The rest does not see the difference
  when both give equal values (`giveAlike_swapped`).

Both rest on `Expr.GiveAlike`, which passes from the operands of a condition to the condition. So
each statement comes down to the leaves, or to the part that is taken out.
-/

set_option autoImplicit false

namespace EdgeGuard

variable {σ τ : Type}

/-! ### Functions that always give the same -/

namespace Context

/-- Calls of some functions of the context lead from one state of the world to another. The names
are any names, so the states that an evaluation passes through are among these. -/
def Reaches (context : Context σ) (world reached : σ) : Prop :=
  ∃ names, reached = context.worldAfter names world

/-- From this state of the world on, every function gives the same outcome on each call. The calls
may still change the world. A function may count its calls, as long as it does not let the count be
seen. -/
def Steady (context : Context σ) (world : σ) : Prop :=
  ∀ name function, context.function? name = some function →
    ∀ reached, context.Reaches world reached → (function reached).1 = (function world).1

/-- Without a call the world is reached that was there. -/
theorem reaches_self (context : Context σ) (world : σ) : context.Reaches world world :=
  ⟨[], rfl⟩

/-- More calls lead from a world that is reached to another one that is. -/
theorem Reaches.worldAfter {context : Context σ} {world reached : σ}
    (h : context.Reaches world reached) (names : List String) :
    context.Reaches world (context.worldAfter names reached) := by
  obtain ⟨before, rfl⟩ := h
  exact ⟨before ++ names, (context.worldAfter_append before names world).symm⟩

end Context

namespace Operand

/-- The leaf with its value in a context written down: a constant in the place of a variable or a
function. -/
def frozen (context : Context σ) (start : Run σ) (operand : Operand) : Operand :=
  match operand.kind with
  | .constant => operand
  | .variable | .function => .ofConstant (operand.resolve context start).1

/-- A leaf that was written down has its value in every context, without a call. A constant makes no
call, so the run stays as it is. -/
theorem resolve_frozen (context : Context σ) (start : Run σ) (operand : Operand)
    (other : Context τ) (run : Run τ) :
    (operand.frozen context start).resolve other run = ((operand.resolve context start).1, run) := by
  cases hkind : operand.kind with
  | constant => simp only [frozen, resolve, hkind]
  | «variable» | function => simp only [frozen, hkind]; rfl

/-- The value of a leaf is the same after any calls. -/
theorem resolve_of_steady {context : Context σ} {start run : Run σ}
    (h : context.Steady start.world) (hrun : context.Reaches start.world run.world)
    (operand : Operand) : (operand.resolve context run).1 = (operand.resolve context start).1 :=
  operand.resolve_congr_of_outcome context fun name function hfunction =>
    h name function hfunction run.world hrun

end Operand

namespace Expr

/-! ### Other leaves -/

variable {related : σ → τ → Prop} {context : Context σ} {other : Context τ}

/-- A tree gives values of the same normal forms with other leaves when each leaf does. Malformed
nodes count as null whatever they hold, so they may be changed at will. -/
theorem giveAlike_mapNodes {leaf : Operand → Operand}
    (hleaf : ∀ operand, GiveAlike related context other (.leaf operand) (.leaf (leaf operand)))
    (malformed : Json → Json) (expr : Expr) :
    GiveAlike related context other expr (expr.mapNodes leaf malformed) := by
  induction expr with
  | condition tag operands ih =>
    rw [mapNodes_condition]
    refine giveAlike_condition ?_ tag
    rw [List.forall₂_map_right_iff, List.forall₂_same]
    exact ih
  | leaf operand => exact hleaf operand
  | malformed raw =>
    intro start otherStart hworld
    exact ⟨rfl, hworld⟩

/-- A tree decides the same with other leaves when each leaf gives values of one normal form. -/
theorem fst_run_mapNodes {leaf : Operand → Operand}
    (hleaf : ∀ operand, GiveAlike related context other (.leaf operand) (.leaf (leaf operand)))
    (malformed : Json → Json) (expr : Expr) {start : Run σ} {otherStart : Run τ}
    (hworld : related start.world otherStart.world) :
    ((expr.mapNodes leaf malformed).run other otherStart).1 = (expr.run context start).1 := by
  have hgive := giveAlike_mapNodes hleaf malformed expr
  cases expr with
  | condition tag operands =>
    exact (run_eq_of_giveAlike hgive (by simp) (by simp [mapNodes]) hworld).symm
  | leaf operand => exact (run_eq_of_giveAlike hgive (by simp) (by simp [mapNodes]) hworld).symm
  | malformed raw => rfl

/-! ### Leaves written down -/

/-- The tree with the values of its leaves in a context written down. -/
def frozen (context : Context σ) (start : Run σ) (expr : Expr) : Expr :=
  expr.mapNodes (Operand.frozen context start) id

/-- At every point a leaf gives the value that is written down. The relation of the worlds is that
the first one was reached from the start. Nothing is asked of the second one. -/
theorem giveAlike_frozen_leaf {start : Run σ} (h : context.Steady start.world) (other : Context τ)
    (operand : Operand) :
    GiveAlike (fun reached (_ : τ) => context.Reaches start.world reached) context other
      (.leaf operand) (.leaf (operand.frozen context start)) := by
  intro run otherRun hreached
  constructor
  · show Except.ok (operand.resolve context run).1.normal
      = .ok ((operand.frozen context start).resolve other otherRun).1.normal
    rw [operand.resolve_of_steady h hreached, operand.resolve_frozen]
  · show context.Reaches start.world (operandValue context (.leaf operand) run).2.world
    rw [(visit_describes_operandValue context _ run).world]
    exact hreached.worldAfter _

/-- At every point a tree gives as an operand what it gives with its leaves written down. -/
theorem giveAlike_frozen {start : Run σ} (h : context.Steady start.world) (other : Context τ)
    (expr : Expr) :
    GiveAlike (fun reached (_ : τ) => context.Reaches start.world reached) context other expr
      (expr.frozen context start) :=
  giveAlike_mapNodes (giveAlike_frozen_leaf h other) id expr

/-- A tree with its leaves written down decides in every context what the tree decides in its own. -/
theorem fst_run_frozen {start : Run σ} (h : context.Steady start.world) (other : Context τ)
    (run : Run τ) (expr : Expr) :
    ((expr.frozen context start).run other run).1 = (expr.run context start).1 :=
  fst_run_mapNodes (giveAlike_frozen_leaf h other) id expr (context.reaches_self start.world)

/-! ### A part taken out for another -/

/-- The second tree has `part'` where the first one has `part`, at one place. -/
inductive Swapped (part part' : Expr) : Expr → Expr → Prop
  | here : Swapped part part' part part'
  | operand {operand operand' : Expr} (tag : OperatorTag) (before after : List Expr)
      (h : Swapped part part' operand operand') :
      Swapped part part' (.condition tag (before ++ operand :: after))
        (.condition tag (before ++ operand' :: after))

/-- The two points that a context is at in two runs from one start. -/
def BothReached (context : Context σ) (start : Run σ) (reached reached' : σ) : Prop :=
  context.Reaches start.world reached ∧ context.Reaches start.world reached'

/-- At any two points a tree gives values of one normal form. -/
theorem giveAlike_self {start : Run σ} (h : context.Steady start.world) (expr : Expr) :
    GiveAlike (BothReached context start) context context expr expr := by
  rintro run run' ⟨hreached, hreached'⟩
  -- At both points it gives what it gives with its leaves written down.
  obtain ⟨hvalue, -⟩ := giveAlike_frozen h (Context.empty (σ := Unit)) expr run (Run.start ()) hreached
  obtain ⟨hvalue', -⟩ :=
    giveAlike_frozen h (Context.empty (σ := Unit)) expr run' (Run.start ()) hreached'
  refine ⟨hvalue.trans hvalue'.symm, ?_, ?_⟩
  · rw [(visit_describes_operandValue context expr run).world]
    exact hreached.worldAfter _
  · rw [(visit_describes_operandValue context expr run').world]
    exact hreached'.worldAfter _

/-- A condition gives its decision at every point, as the constant of it does. The condition is
evaluated at a later point in the tree than by itself, which makes no difference for steady
functions. -/
theorem giveAlike_decided {start : Run σ} (h : context.Steady start.world) {tag : OperatorTag}
    {operands : List Expr} {result : Bool}
    (hresult : ((Expr.condition tag operands).run context start).1 = .ok result) :
    GiveAlike (BothReached context start) context context (.condition tag operands)
      (.leaf (.ofConstant (.bool result))) := by
  rintro run run' ⟨hreached, hreached'⟩
  -- Its value at any point is that at the start, and that is the decision.
  obtain ⟨hvalue, hlast, -⟩ :=
    giveAlike_self h (.condition tag operands) run start ⟨hreached, context.reaches_self _⟩
  refine ⟨?_, hlast, hreached'⟩
  rw [hvalue, operandValue_condition, hresult]
  rfl

/-- Trees that differ in one part give values of one normal form when the parts do. The induction is
on the way down to the part, and the operands beside the way are the same on both sides. -/
theorem giveAlike_swapped {start : Run σ} (h : context.Steady start.world) {part part' a b : Expr}
    (hpart : GiveAlike (BothReached context start) context context part part')
    (hswapped : Swapped part part' a b) :
    GiveAlike (BothReached context start) context context a b := by
  have hsame : ∀ operands : List Expr,
      List.Forall₂ (GiveAlike (BothReached context start) context context) operands operands :=
    fun operands => List.forall₂_same.2 fun operand _ => giveAlike_self h operand
  induction hswapped with
  | here => exact hpart
  | operand tag before after _ ih =>
    exact giveAlike_condition (List.rel_append (hsame before) (.cons ih (hsame after))) tag

/-- Trees that differ in one part decide the same when the parts give values of one normal form. The
part may be the whole tree, so it must not be a value that is no node. -/
theorem run_eq_of_swapped {start : Run σ} (h : context.Steady start.world) {part part' a b : Expr}
    (hpart : GiveAlike (BothReached context start) context context part part')
    (hraw : ∀ raw, part ≠ .malformed raw) (hraw' : ∀ raw, part' ≠ .malformed raw)
    (hswapped : Swapped part part' a b) : (b.run context start).1 = (a.run context start).1 := by
  have hstart : BothReached context start start.world start.world :=
    ⟨context.reaches_self _, context.reaches_self _⟩
  have hgive := giveAlike_swapped h hpart hswapped
  -- The root of a tree is the part itself or a condition.
  cases hswapped with
  | here => exact (run_eq_of_giveAlike hgive hraw hraw' hstart).symm
  | operand => exact (run_eq_of_giveAlike hgive (by simp) (by simp) hstart).symm

/-- **Evaluation is compositional.** Let the functions of a context give the same outcome on every
call.

* With a constant of its value in the place of every variable and function, a tree is evaluated in
  any context to the decision or the fault that it has in its own, and it passes the check or has
  the same problem.
* Let a condition in the tree decide something when it is evaluated by itself. With the truth value
  in its place, the tree is evaluated to the same decision or fault. -/
theorem run_frozen_and_swapped (expr : Expr) (context : Context σ) (start : Run σ)
    (h : context.Steady start.world) :
    (∀ {τ : Type} (other : Context τ) (run : Run τ),
        ((expr.frozen context start).run other run).1 = (expr.run context start).1) ∧
      (expr.frozen context start).check = expr.check ∧
      ∀ (tag : OperatorTag) (operands : List Expr) (result : Bool) (replaced : Expr),
        ((Expr.condition tag operands).run context start).1 = .ok result →
        Swapped (.condition tag operands) (.leaf (.ofConstant (.bool result))) expr replaced →
        (replaced.run context start).1 = (expr.run context start).1 := by
  refine ⟨fun other run => fst_run_frozen h other run expr, check_mapNodes _ _ expr, ?_⟩
  intro tag operands result replaced hresult hswapped
  exact run_eq_of_swapped h (giveAlike_decided h hresult) (by simp) (by simp) hswapped

/-- One function counts its calls and gives one text each time, the other one panics each time. The
comparison of the first with a variable may be taken out for its truth value. -/
theorem run_frozen_and_swapped_of_count :
    let mode : Callable Nat := fun calls => (.value (.str "auto"), calls + 1)
    let boom : Callable Nat := fun calls => (.panic, calls + 1)
    let context := ((Context.empty.setVariable "wanted" (.str "auto")).setFunction "mode"
      mode).setFunction "boom" boom
    let start := Run.start 0
    let fits := Expr.condition (.known .eq)
      [.leaf (.ofFunction "mode"), .leaf (.ofVariable "wanted")]
    let tree := fun first : Expr => Expr.condition (.known .eq)
      [first, .condition (.known .isNull) [.leaf (.ofFunction "boom")]]
    let decided := Expr.leaf (.ofConstant (.bool true))
    context.Steady start.world ∧
      (((tree fits).frozen context start).run Context.empty (Run.start ())).1 = .ok true ∧
      ((tree fits).frozen context start).check = .ok () ∧
      (fits.run context start).1 = .ok true ∧
      Swapped fits decided (tree fits) (tree decided) ∧
      ((tree decided).run context start).1 = ((tree fits).run context start).1 := by
  intro mode boom context start fits tree decided
  -- Both functions give one outcome in every world, so the worlds reached do not matter.
  have hsteady : context.Steady start.world := by
    intro name function hfunction reached _
    simp only [context, Context.function?, Context.setFunction, Context.setVariable,
      Bindings.get?_insert] at hfunction
    split at hfunction
    · cases hfunction
      rfl
    · split at hfunction
      · cases hfunction
        rfl
      · cases hfunction
  have hfits : (fits.run context start).1 = .ok true := rfl
  have hswapped : Swapped fits decided (tree fits) (tree decided) := .operand _ [] _ .here
  obtain ⟨hfrozen, hcheck, hparts⟩ := run_frozen_and_swapped (tree fits) context start hsteady
  exact ⟨hsteady, hfrozen Context.empty (Run.start ()), hcheck, hfits, hswapped,
    hparts _ _ _ _ hfits hswapped⟩

end Expr

end EdgeGuard
