import EdgeGuard.Proofs.Edge.Attach

/-!
# `EdgeGuard.Proofs.Edge.Select`: which edges are selected, and what is called for that

The functions that an edge calls are known from its tree. So the state of the world in which an
edge is asked is known without the decisions on the edges before it: `turns` lists the edges with
these states.

* `select_eq_select_leaving`: edges of other sources do not count.
* `select_eq_turns`: the selected edges are those that can be followed at their turn, and the calls
  are those of the trees that are asked, one after the other.
-/

set_option autoImplicit false

namespace EdgeGuard.Edge

variable {σ : Type}

/-- The edges with the state of the world in which each has its turn: the functions of the trees
that are asked before it have been called. The list does not say which edges pass, as that has no
influence on the states. -/
def turns (context : Context σ) : List Edge → σ → List (Edge × σ)
  | [], _ => []
  | edge :: rest, world =>
    (edge, world) :: turns context rest (context.worldAfter edge.functionNames world)

/-- The edges of a list that lead away from a node. -/
def leaving (source : String) (edges : List Edge) : List Edge :=
  edges.filter fun edge => edge.source = source

/-- The first edge of the node is asked, and the others in the run that it left. -/
theorem select_cons {edge : Edge} {source : String} (h : edge.source = source)
    (context : Context σ) (rest : List Edge) (start : Run σ) :
    select context source (edge :: rest) start
      = ((if (edge.passes context start).1 then [edge] else [])
            ++ (select context source rest (edge.passes context start).2).1,
          (select context source rest (edge.passes context start).2).2) := by
  rw [select, if_pos h]
  -- Whether the edge passed or not, the others are asked in the run that it left.
  rcases edge.passes context start with ⟨_ | _, run⟩ <;> rfl

/-- Edges of other sources do not count. -/
theorem select_eq_select_leaving (context : Context σ) (source : String) (edges : List Edge)
    (start : Run σ) :
    select context source edges start = select context source (leaving source edges) start := by
  induction edges generalizing start with
  | nil => rfl
  | cons edge rest ih =>
    unfold leaving at ih ⊢
    by_cases hsource : edge.source = source
    · rw [List.filter_cons_of_pos (by simpa using hsource), select_cons hsource,
        select_cons hsource, ih]
    · rw [List.filter_cons_of_neg (by simpa using hsource), select, if_neg hsource, ih]

/-- The edges of one source are selected when they can be followed at their turn, and each that is
asked for a tree calls the functions of it. The induction is on the list of edges, from any run. -/
theorem select_own {source : String} {edges : List Edge}
    (h : ∀ edge ∈ edges, edge.source = source) (context : Context σ) (start : Run σ) :
    (select context source edges start).1
        = ((turns context edges start.world).filter fun turn =>
            turn.1.Follows context turn.2).map Prod.fst ∧
      (select context source edges start).2.calls
        = start.calls ++ context.called (edges.flatMap functionNames) ∧
      (select context source edges start).2.world
        = context.worldAfter (edges.flatMap functionNames) start.world := by
  induction edges generalizing start with
  | nil => simp [select, turns]
  | cons edge rest ih =>
    obtain ⟨hcalls, hworld⟩ := passes_calls_world context edge start
    obtain ⟨hselected, hrestCalls, hrestWorld⟩ :=
      ih (fun edge hmem => h edge (List.mem_cons_of_mem _ hmem)) (edge.passes context start).2
    rw [select_cons (h edge List.mem_cons_self), List.flatMap_cons]
    refine ⟨?_, ?_, ?_⟩
    · -- The edges behind are asked in the world that this edge left, which is that of their turn.
      rw [turns, List.filter_cons, hselected, hworld]
      by_cases hfollows : edge.Follows context start.world
      · rw [if_pos ((passes_iff_follows context edge start).2 hfollows),
          if_pos (by simpa using hfollows)]
        rfl
      · rw [if_neg (mt (passes_iff_follows context edge start).1 hfollows),
          if_neg (by simpa using hfollows)]
        rfl
    · rw [hrestCalls, hcalls, Context.called_append, List.append_assoc]
    · rw [hrestWorld, hworld, Context.worldAfter_append]

/-- The functions that edges call are those of the trees that are asked, one after the other. -/
theorem called_flatMap_functionNames (context : Context σ) (edges : List Edge) :
    context.called (edges.flatMap functionNames)
      = (edges.filterMap asked?).flatMap fun expr => context.called expr.functionNames := by
  induction edges with
  | nil => rfl
  | cons edge rest ih =>
    rw [List.flatMap_cons, Context.called_append, ih, functionNames, List.filterMap_cons]
    cases edge.asked? <;> rfl

/-- **Which edges are selected, and which functions are called for that.** Whatever the functions of
the context give and change, `select` goes over the edges of the source in the order of the list.

* It selects, in this order and as often as they are listed, those that can be followed in the
  state of the world at their turn.
* It calls, one tree after the other, all functions of the trees that the conditional edges are
  asked for, as far as the context has them. An edge without such a tree calls nothing, and no tree
  is left before its end.
* A list that differs only in edges of other sources gives the same selection in the same run. -/
theorem select_eq_turns (context : Context σ) (source : String) (edges : List Edge)
    (start : Run σ) :
    let own := leaving source edges
    let result := select context source edges start
    result.1 = ((turns context own start.world).filter fun turn =>
        turn.1.Follows context turn.2).map Prod.fst ∧
      result.2.calls = start.calls ++
        (own.filterMap asked?).flatMap (fun expr => context.called expr.functionNames) ∧
      result.2.world = context.worldAfter (own.flatMap functionNames) start.world ∧
      ∀ others, leaving source others = own → select context source others start = result := by
  intro own result
  have hsource : ∀ edge ∈ own, edge.source = source := by
    intro edge hmem
    have hkept := (List.mem_filter.1 hmem).2
    simpa using hkept
  have hresult : result = select context source own start :=
    select_eq_select_leaving context source edges start
  obtain ⟨hselected, hcalls, hworld⟩ := select_own hsource context start
  rw [hresult]
  refine ⟨hselected, ?_, hworld, fun others hothers => ?_⟩
  · rw [hcalls, called_flatMap_functionNames]
  · rw [select_eq_select_leaving, hothers]

/-- Two edges ask the same tree, and the first call changes what the second one gives. Edges of
another source before and between them do not call. -/
theorem select_eq_turns_of_ticks :
    let tick : Callable Nat := fun count => (.value (.bool (count == 0)), count + 1)
    let context := Context.empty.setFunction "tick" tick
    let t := Expr.condition (.known .not) [.leaf (.ofFunction "tick")]
    let first := (between "1" "a" "b").withCondition t
    let second := (between "2" "a" "c").withCondition t
    let other := (between "3" "b" "a").withCondition t
    let start := Run.start 0
    (select context "a" [first, second] start).1 = [second] ∧
      (select context "a" [first, second] start).2.calls = ["tick", "tick"] ∧
      select context "a" [other, first, other, second] start
        = select context "a" [first, second] start := by
  intro tick context t first second other start
  have hordered : t.Ordered := by
    refine .condition trivial fun operand hmem => ?_
    rw [List.mem_singleton.1 hmem]
    exact .leaf trivial
  have hdepth : t.toJson.depth ≤ Json.depthLimit := by decide
  have hfirst : first.asked? = some t :=
    asked?_withCondition (between "1" "a" "b") hordered rfl hdepth
  have hsecond : second.asked? = some t :=
    asked?_withCondition (between "2" "a" "c") hordered rfl hdepth
  -- In the world 0 the call gives true and its negation blocks the edge.
  have hblocked : ¬ first.Follows context 0 := by
    rintro (hfalse | ⟨expr, hread, hcheck, htrue⟩)
    · cases hfalse
    · have hasked := (asked?_eq_some_iff first expr).2 ⟨rfl, hread, hcheck⟩
      rw [hfirst] at hasked
      cases hasked
      cases htrue
  -- The call has changed the world, so the same tree lets the second edge pass.
  have hfollows : second.Follows context 1 := by
    obtain ⟨-, hread, hcheck⟩ := (asked?_eq_some_iff second t).1 hsecond
    exact .inr ⟨t, hread, hcheck, rfl⟩
  obtain ⟨hselected, hcalls, -, hothers⟩ := select_eq_turns context "a" [first, second] start
  have hown : leaving "a" [first, second] = [first, second] := rfl
  have hturns : turns context [first, second] 0 = [(first, 0), (second, 1)] := by
    rw [turns, functionNames, hfirst]
    rfl
  refine ⟨?_, ?_, hothers _ rfl⟩
  · rw [hselected, hown]
    show List.map _ (List.filter _ (turns context [first, second] 0)) = _
    rw [hturns]
    simp [hblocked, hfollows]
  · rw [hcalls, hown]
    simp only [List.filterMap_cons, hfirst, hsecond]
    rfl

end EdgeGuard.Edge
