import EdgeGuard.Edge.Route
import EdgeGuard.Proofs.Eval.Faults

/-!
# `EdgeGuard.Proofs.Edge.Passes`: what asking one edge comes to

`Edge.asked?` is the tree that an edge is asked for. There is none when the edge is unconditional,
and none when its condition is not there, cannot be read or fails the check. In these cases asking
the edge only adds notices.

* `passes_iff_follows`: an edge passes when it is unconditional or its condition can be read, is
  well formed and decides true in the state of the world.
* `passes_calls_world`: an edge that is asked for a tree calls all functions of it, whatever they
  give, and no other edge calls any.
-/

set_option autoImplicit false

namespace EdgeGuard.Edge

variable {σ : Type}

/-- The tree that an edge is asked for: the edge is conditional, and its condition is there, can be
read and passes the check. -/
def asked? (edge : Edge) : Option Expr :=
  if edge.isConditional then
    match edge.condition? with
    | .ok (some expr) =>
      match expr.check with
      | .ok () => some expr
      | .error _ => none
    | _ => none
  else none

/-- The names of the function leaves of the tree that an edge is asked for. -/
def functionNames (edge : Edge) : List String :=
  match edge.asked? with
  | some expr => expr.functionNames
  | none => []

/-- An edge can be followed in a state of the world: it is unconditional, or its condition can be
read, passes the check and decides true. -/
def Follows (context : Context σ) (edge : Edge) (world : σ) : Prop :=
  edge.isConditional = false ∨
    ∃ expr, edge.condition? = .ok (some expr) ∧ expr.check = .ok () ∧
      (expr.evaluate context (Run.start world)).1 = true

/-- An edge is asked for a tree when it is conditional, the tree is what its condition reads as, and
the tree passes the check. These are the three hurdles before a tree is evaluated. Behind them the
edge and the tree decide the same. -/
theorem asked?_eq_some_iff (edge : Edge) (expr : Expr) :
    edge.asked? = some expr
      ↔ edge.isConditional = true ∧ edge.condition? = .ok (some expr) ∧ expr.check = .ok () := by
  unfold asked?
  cases edge.isConditional with
  | false => simp
  | true =>
    -- Only the last case has a tree, and there the check decides.
    rcases edge.condition? with error | (_ | found)
    · simp
    · simp
    · cases hcheck : found.check with
      | error problem =>
        simp only [if_true, hcheck, true_and]
        constructor
        · intro h
          cases h
        · rintro ⟨hfound, hok⟩
          cases hfound
          rw [hcheck] at hok
          cases hok
      | ok _ =>
        simp only [if_true, hcheck, true_and]
        constructor
        · intro h
          cases h
          exact ⟨rfl, hcheck⟩
        · rintro ⟨hfound, -⟩
          cases hfound
          rfl

/-- The tree of a condition is that of its stored value. -/
theorem condition?_eq_some_iff (edge : Edge) (expr : Expr) :
    edge.condition? = .ok (some expr)
      ↔ ∃ raw, edge.conditionJson? = .ok (some raw) ∧ Expr.ofJson raw = expr := by
  unfold condition?
  rcases edge.conditionJson? with error | (_ | raw) <;> simp [Except.map]

/-- An unconditional edge passes, and nothing comes of asking it. -/
theorem passes_of_unconditional {edge : Edge} (h : edge.isConditional = false)
    (context : Context σ) (start : Run σ) : edge.passes context start = (true, start) := by
  simp [passes, h]

/-- An edge whose condition cannot be read is refused with a notice. -/
theorem passes_of_unreadable {edge : Edge} {error : Json.ReadError}
    (hconditional : edge.isConditional = true) (h : edge.conditionJson? = .error error)
    (context : Context σ) (start : Run σ) :
    edge.passes context start = (false, start.note (.unreadableCondition edge.id)) := by
  simp only [passes, hconditional, if_true, h]

/-- An edge whose condition can be read is decided by the stored value. What is left to do does not
depend on the text any more. -/
theorem passes_of_readable {edge : Edge} {raw : Json} (hconditional : edge.isConditional = true)
    (h : edge.conditionJson? = .ok (some raw)) (context : Context σ) (start : Run σ) :
    edge.passes context start = passesWith context edge raw start := by
  simp only [passes, hconditional, if_true, h]

/-- A stored tree that passes the check decides whether the edge passes. -/
theorem passesWith_of_check {raw : Json} (h : (Expr.ofJson raw).check = .ok ())
    (context : Context σ) (edge : Edge) (start : Run σ) :
    let decided := (Expr.ofJson raw).evaluate context (start.noteAll (Expr.decodeNotices raw))
    passesWith context edge raw start
      = (decided.1, decided.2.note (.decidedEdge edge.id edge.source edge.target decided.1)) := by
  simp only [passesWith, h]

/-- A stored tree with a problem is refused. The notices on what was dropped from the stored tree
come first, and that of the problem is last. -/
theorem passesWith_of_problem {raw : Json} {problem : Problem}
    (h : (Expr.ofJson raw).check = .error problem) (context : Context σ) (edge : Edge)
    (start : Run σ) :
    passesWith context edge raw start
      = (false, start.noteAll (Expr.decodeNotices raw ++ [.invalidCondition edge.id problem])) := by
  simp only [passesWith, h, Run.note, Run.noteAll, List.append_assoc]

/-- An edge that is asked for a tree passes when the tree decides true. The notices before the
evaluation are those on what was dropped when the tree was read. -/
theorem passes_of_asked {edge : Edge} {expr : Expr} (h : edge.asked? = some expr)
    (context : Context σ) (start : Run σ) :
    ∃ notices notice, edge.passes context start
      = ((expr.evaluate context (start.noteAll notices)).1,
          (expr.evaluate context (start.noteAll notices)).2.note notice) := by
  obtain ⟨hconditional, hread, hcheck⟩ := (asked?_eq_some_iff edge expr).1 h
  obtain ⟨raw, hraw, rfl⟩ := (condition?_eq_some_iff edge expr).1 hread
  rw [passes_of_readable hconditional hraw, passesWith_of_check hcheck context edge start]
  exact ⟨_, _, rfl⟩

/-- A conditional edge that is asked for no tree is refused, and nothing but notices comes of it.
There are several reasons, each with notices of its own. None of them makes a call or changes the
world. -/
theorem passes_of_not_asked {edge : Edge} (hconditional : edge.isConditional = true)
    (h : edge.asked? = none) (context : Context σ) (start : Run σ) :
    ∃ notices, edge.passes context start = (false, start.noteAll notices) := by
  -- There is no tree because the text cannot be read, because it is not there, or because the check
  -- refuses the tree. The fourth case contradicts the hypothesis.
  cases hraw : edge.conditionJson? with
  | error error =>
    exact ⟨[.unreadableCondition edge.id], passes_of_unreadable hconditional hraw context start⟩
  | ok found =>
    cases found with
    | none =>
      refine ⟨[.missingCondition edge.id], ?_⟩
      simp only [passes, hconditional, if_true, hraw]
      rfl
    | some raw =>
      rw [passes_of_readable hconditional hraw]
      cases hcheck : (Expr.ofJson raw).check with
      | error problem => exact ⟨_, passesWith_of_problem hcheck context edge start⟩
      | ok _ =>
        have hread := (condition?_eq_some_iff edge _).2 ⟨raw, hraw, rfl⟩
        have hasked := (asked?_eq_some_iff edge _).2 ⟨hconditional, hread, hcheck⟩
        rw [h] at hasked
        cases hasked

/-- An edge passes when it can be followed in the state of the world. Notices and earlier calls have
no say in it, so only the state of the world is asked for. -/
theorem passes_iff_follows (context : Context σ) (edge : Edge) (start : Run σ) :
    (edge.passes context start).1 = true ↔ edge.Follows context start.world := by
  cases hconditional : edge.isConditional with
  | false => simp [passes_of_unconditional hconditional, Follows, hconditional]
  | true =>
    cases hasked : edge.asked? with
    | none =>
      obtain ⟨notices, hpasses⟩ := passes_of_not_asked hconditional hasked context start
      have hnot : ¬ edge.Follows context start.world := by
        rintro (hfalse | ⟨expr, hread, hcheck, -⟩)
        · rw [hconditional] at hfalse
          cases hfalse
        · rw [(asked?_eq_some_iff edge expr).2 ⟨hconditional, hread, hcheck⟩] at hasked
          cases hasked
      simp [hpasses, hnot]
    | some expr =>
      obtain ⟨-, hread, hcheck⟩ := (asked?_eq_some_iff edge expr).1 hasked
      obtain ⟨notices, notice, hpasses⟩ := passes_of_asked hasked context start
      -- The tree is evaluated in a run with a past, and decides as in one without.
      have hsame : (expr.evaluate context (start.noteAll notices)).1
          = (expr.evaluate context (Run.start start.world)).1 :=
        Expr.evaluate_congr context expr rfl
      rw [hpasses, hsame]
      constructor
      · exact fun h => .inr ⟨expr, hread, hcheck, h⟩
      · rintro (hfalse | ⟨other, hother, -, h⟩)
        · rw [hconditional] at hfalse
          cases hfalse
        · rw [hread] at hother
          cases hother
          exact h

instance (context : Context σ) (edge : Edge) (world : σ) : Decidable (edge.Follows context world) :=
  decidable_of_iff _ (passes_iff_follows context edge (Run.start world))

/-- An edge calls all functions of the tree that it is asked for. No value decides which functions
are called, so this does not depend on whether the edge passes. -/
theorem passes_calls_world (context : Context σ) (edge : Edge) (start : Run σ) :
    (edge.passes context start).2.calls = start.calls ++ context.called edge.functionNames ∧
      (edge.passes context start).2.world
        = context.worldAfter edge.functionNames start.world := by
  unfold functionNames
  cases hasked : edge.asked? with
  | none =>
    cases hconditional : edge.isConditional with
    | false => simp [passes_of_unconditional hconditional]
    | true =>
      obtain ⟨notices, hpasses⟩ := passes_of_not_asked hconditional hasked context start
      simp [hpasses, Run.noteAll]
  | some expr =>
    obtain ⟨-, -, hcheck⟩ := (asked?_eq_some_iff edge expr).1 hasked
    obtain ⟨notices, notice, hpasses⟩ := passes_of_asked hasked context start
    have h := Expr.evaluate_calls_world context expr (start.noteAll notices)
    -- A tree that passes the check is visited to its end, so all its functions are called.
    rw [Expr.visitRoot_of_check hcheck] at h
    rw [hpasses]
    exact h

end EdgeGuard.Edge
