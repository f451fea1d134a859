import EdgeGuard.Proofs.Edge.Select
import EdgeGuard.Proofs.Eval.Frame

/-!
# `EdgeGuard.Proofs.Edge.Frame`: variables that no condition refers to

An edge sees a context through the tree that it is asked for, and a tree through its leaves. So a
variable may be set, or set to something else, when no leaf of the trees in question looks at it.
Everything else stays as it was: what is decided, what is called, what is noted, and the state in
which the world is left.

* `passes_of_evaluate`: an edge passes alike when its tree is evaluated alike.
* `select_of_passes`: edges are selected alike when those of the source pass alike.
* `decisions_setVariable_of_not_refers`: a variable is set without an effect on trees and edges that
  do not refer to it.
-/

set_option autoImplicit false

namespace EdgeGuard.Edge

variable {σ : Type} {context other : Context σ}

/-- An edge sees a context through the tree that it is asked for. An edge that is asked for no tree
does not look at the context. -/
theorem passes_of_evaluate {edge : Edge}
    (h : ∀ expr, edge.asked? = some expr → expr.evaluate context = expr.evaluate other) :
    edge.passes context = edge.passes other := by
  funext start
  cases hconditional : edge.isConditional with
  | false => rw [passes_of_unconditional hconditional, passes_of_unconditional hconditional]
  | true =>
    cases hraw : edge.conditionJson? with
    | error error =>
      rw [passes_of_unreadable hconditional hraw, passes_of_unreadable hconditional hraw]
    | ok found =>
      cases found with
      | none => simp only [passes, hconditional, hraw]
      | some raw =>
        rw [passes_of_readable hconditional hraw, passes_of_readable hconditional hraw]
        cases hcheck : (Expr.ofJson raw).check with
        | error problem => rw [passesWith_of_problem hcheck, passesWith_of_problem hcheck]
        | ok _ =>
          -- The tree passes the check, so it is the one that the edge is asked for.
          have hread := (condition?_eq_some_iff edge _).2 ⟨raw, hraw, rfl⟩
          have hasked := (asked?_eq_some_iff edge _).2 ⟨hconditional, hread, hcheck⟩
          rw [passesWith_of_check hcheck, passesWith_of_check hcheck, h _ hasked]

/-- A selection sees a context through the edges of its source. Edges of other sources are not
asked, so nothing is said about them. -/
theorem select_of_passes {source : String} {edges : List Edge}
    (h : ∀ edge ∈ leaving source edges, edge.passes context = edge.passes other) :
    select context source edges = select other source edges := by
  funext start
  induction edges generalizing start with
  | nil => rfl
  | cons edge rest ih =>
    unfold leaving at h ih
    by_cases hsource : edge.source = source
    · rw [List.filter_cons_of_pos (by simpa using hsource)] at h
      obtain ⟨hedge, hrest⟩ := List.forall_mem_cons.1 h
      rw [select_cons hsource, select_cons hsource, hedge, ih hrest]
    · rw [List.filter_cons_of_neg (by simpa using hsource)] at h
      rw [select, select, if_neg hsource, if_neg hsource, ih h]

/-- An edge refers to a variable: the tree that it is asked for does. -/
def Refers (edge : Edge) (name : String) : Prop :=
  ∃ expr, edge.asked? = some expr ∧ expr.Refers name

/-- An edge without a reference to a variable passes alike when the variable is set. -/
theorem passes_setVariable_of_not_refers (context : Context σ) {name : String} (value : Json)
    {edge : Edge} (h : ¬ edge.Refers name) :
    edge.passes (context.setVariable name value) = edge.passes context := by
  refine passes_of_evaluate fun expr hasked => ?_
  have hexpr : ¬ expr.Refers name := fun hrefers => h ⟨expr, hasked, hrefers⟩
  exact Expr.evaluate_of_resolvesAlike (Expr.resolvesAlike_setVariable context value hexpr)

/-- **A variable does not matter where nothing refers to it.** Let a variable be set in a context,
whether or not it was bound before. A tree refers to it when one of the tree's variable leaves has
the name of the variable, or a name that goes on behind it with a dot; the latter counts when there
is no dot in the name of the variable. An edge refers to what its tree refers to. From any state of
the world, and whatever the functions give:

* A tree that does not refer to the variable is evaluated to the same decision, with the same calls,
  the same log and the same state of the world behind it.
* An edge that does not refer to it passes alike, in this sense.
* A selection in which no edge of the source refers to it gives the same edges, in this sense. -/
theorem decisions_setVariable_of_not_refers (context : Context σ) (name : String) (value : Json)
    (start : Run σ) :
    (∀ expr : Expr, ¬ expr.Refers name →
      expr.evaluate (context.setVariable name value) start = expr.evaluate context start) ∧
    (∀ edge : Edge, ¬ edge.Refers name →
      edge.passes (context.setVariable name value) start = edge.passes context start) ∧
    ∀ (source : String) (edges : List Edge), (∀ edge ∈ leaving source edges, ¬ edge.Refers name) →
      select (context.setVariable name value) source edges start
        = select context source edges start := by
  refine ⟨fun expr h => ?_, fun edge h => ?_, fun source edges h => ?_⟩
  · rw [Expr.evaluate_of_resolvesAlike (Expr.resolvesAlike_setVariable context value h)]
  · rw [passes_setVariable_of_not_refers context value h]
  · rw [select_of_passes fun edge hmem =>
      passes_setVariable_of_not_refers context value (h edge hmem)]

/-- A variable whose name has a dot starts no path. It is set beside a path that goes on behind its
name, a constant and a function that have its name, and an edge of another source that refers to
it. -/
theorem decisions_setVariable_of_path :
    let tick : Callable Nat := fun count => (.value (.bool (count == 0)), count + 1)
    let unit := Json.obj [("unit", .str "device.temp")]
    let context := (Context.empty.setVariable "device" (.obj [("temp", unit)])).setFunction
      "device.temp" tick
    let changed := context.setVariable "device.temp" (.str "hot")
    let t := Expr.condition (.known .and) [
      .condition (.known .eq) [.leaf (.ofVariable "device.temp.unit"),
        .leaf (.ofConstant (.str "device.temp"))],
      .leaf (.ofFunction "device.temp")]
    let hot := Expr.condition (.known .eq) [.leaf (.ofVariable "device.temp"),
      .leaf (.ofConstant (.str "hot"))]
    let edge := (between "1" "a" "b").withCondition t
    let otherEdge := (between "2" "b" "a").withCondition hot
    let start := Run.start 0
    hot.Refers "device.temp" ∧ ¬ t.Refers "device.temp" ∧ ¬ edge.Refers "device.temp" ∧
      (hot.evaluate changed start).1 ≠ (hot.evaluate context start).1 ∧
      t.evaluate changed start = t.evaluate context start ∧
      (t.evaluate changed start).1 = true ∧
      edge.passes changed start = edge.passes context start ∧
      select changed "a" [otherEdge, edge, edge] start
        = select context "a" [otherEdge, edge, edge] start := by
  intro tick unit context changed t hot edge otherEdge start
  have hhot : hot.Refers "device.temp" := by
    refine (Expr.refers_condition_iff _ _ _).2 ⟨_, List.mem_cons_self, ?_⟩
    exact (Expr.refers_leaf_iff _ _).2 ⟨rfl, _, rfl, .inl rfl⟩
  -- A path goes on behind a name without a dot only, and this name has one.
  have hpath : ¬ Context.LooksAt "device.temp.unit" "device.temp" := by
    rintro (heq | ⟨hplain, -⟩)
    · exact absurd heq (by decide)
    · exact hplain (by decide)
  have ht : ¬ t.Refers "device.temp" := by
    simp [t, Expr.refers_condition_iff, Expr.refers_leaf_iff, Operand.LooksAt, Operand.ofVariable,
      Operand.ofConstant, Operand.ofFunction, Operand.name?, hpath]
  have hordered : t.Ordered := by
    simp [t, Expr.Ordered, Expr.everywhere_condition_iff, Expr.everywhere_leaf_iff,
      Expr.HoldsOrdered, Operand.ofVariable, Operand.ofConstant, Operand.ofFunction, Json.Ordered]
  have hasked : edge.asked? = some t :=
    asked?_withCondition (between "1" "a" "b") hordered rfl (by decide)
  have hedge : ¬ edge.Refers "device.temp" := by
    rintro ⟨expr, hexpr, hrefers⟩
    rw [hasked] at hexpr
    cases hexpr
    exact ht hrefers
  have hown : ∀ own ∈ leaving "a" [otherEdge, edge, edge], ¬ own.Refers "device.temp" := by
    intro own hmem
    have hsame : own = edge := by
      simpa [leaving, otherEdge, edge, withCondition, between] using hmem
    exact hsame ▸ hedge
  obtain ⟨htrees, hedges, hselections⟩ :=
    decisions_setVariable_of_not_refers context "device.temp" (.str "hot") start
  have hevaluated := htrees t ht
  exact ⟨hhot, ht, hedge, by decide, hevaluated, hevaluated ▸ rfl, hedges edge hedge,
    hselections "a" _ hown⟩

end EdgeGuard.Edge
