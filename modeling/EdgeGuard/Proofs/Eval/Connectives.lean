import EdgeGuard.Proofs.Eval.Compose
import EdgeGuard.Proofs.Eval.Frame
import EdgeGuard.Proofs.Eval.Operands

/-!
# `EdgeGuard.Proofs.Eval.Connectives`: `and` and `or` are about a set of operands

A nested `and` in an `and` may be taken out for its own operands, and likewise a nested `or` in an
`or`. The operands are visited in the same order, and the first fault among them ends both
evaluations at the same place, so that not even the notices differ (`run_spliced`).

In another order the operands make other calls, and another one of several faults may come first.
What is left is the decision, when the functions give the same on every call (`Context.Steady`).
Then an operand gives one value wherever it stands, or it never gives one (`Expr.given?`). A list
has values when each operand gives one, and these are the values (`operandValues_given_cases`). So
whatever is asked of all of them, or of any, is asked of their set.

* `given?_condition_congr` and `given?_swapped`: trees whose operands give the same give the same.
* `given?_connective`: an `and` or `or` over the same set of operands gives the same.
* `connective_of_same_operands`: both laws, for a condition anywhere in a tree.
-/

set_option autoImplicit false

namespace EdgeGuard

variable {σ : Type}

namespace Operator

/-- A truth value stands for the values that it was made of. Both operators are associative over
truth values, and a value counts by its truth value alone. -/
theorem apply_spliced {operator : Operator} (h : operator = .and ∨ operator = .or)
    (before inner after : List Json) :
    ((operator.apply inner).bind fun result => operator.apply (before ++ .bool result :: after))
      = operator.apply (before ++ (inner ++ after)) := by
  rcases h with rfl | rfl
  · show Except.ok ((before ++ Json.bool (inner.all Json.truthy) :: after).all Json.truthy) = .ok _
    simp only [List.all_append, List.all_cons, Json.truthy]
  · show Except.ok ((before ++ Json.bool (inner.any Json.truthy) :: after).any Json.truthy) = .ok _
    simp only [List.any_append, List.any_cons, Json.truthy]

/-- Without values that are missing, `and` and `or` decide something. -/
theorem exists_apply_eq_ok {operator : Operator} (h : operator = .and ∨ operator = .or)
    (values : List Json) : ∃ result, operator.apply values = .ok result := by
  rcases h with rfl | rfl
  · exact ⟨_, rfl⟩
  · exact ⟨_, rfl⟩

/-- `and` and `or` decide the same over values of the same normal forms, in any order and as often
as they are there. The truth value is seen in the normal form, and whether all or any are true is a
matter of membership. -/
theorem apply_eq_of_mem_normal {operator : Operator} (h : operator = .and ∨ operator = .or)
    {values others : List Json}
    (hmem : ∀ normal, normal ∈ values.map Json.normal ↔ normal ∈ others.map Json.normal) :
    operator.apply values = operator.apply others := by
  -- An operator sees normal forms, and of these only which ones there are.
  rw [← apply_normal operator values, ← apply_normal operator others]
  rcases h with rfl | rfl
  · refine congrArg Except.ok (Bool.eq_iff_iff.2 ?_)
    simp only [List.all_eq_true, hmem]
  · refine congrArg Except.ok (Bool.eq_iff_iff.2 ?_)
    simp only [List.any_eq_true, hmem]

end Operator

namespace Expr

variable {context : Context σ}

/-! ### Operands spliced in -/

/-- The operands of a nested condition may stand in its place, in an `and` or an `or` of its own
kind. It is an equality of runs: the operands are visited in the same order and the same fault comes
first. -/
theorem run_spliced {operator : Operator} (h : operator = .and ∨ operator = .or)
    (before inner after : List Expr) :
    (Expr.condition (.known operator) (before ++ .condition (.known operator) inner :: after)).run
        context
      = (Expr.condition (.known operator) (before ++ inner ++ after)).run context := by
  funext run
  rw [run_known, run_known, List.append_assoc]
  cases hbefore : (operandValues context before run).1 with
  | error fault =>
    rw [operandValues_append_of_error hbefore, operandValues_append_of_error hbefore]
  | ok values =>
    rw [operandValues_append_of_ok hbefore, operandValues_append_of_ok hbefore]
    -- Both evaluations are now in front of the first inner operand.
    generalize (operandValues context before run).2 = middle
    have hnested : operandValue context (.condition (.known operator) inner) middle
        = (((operandValues context inner middle).1.bind operator.apply).map .bool,
            (operandValues context inner middle).2) := by
      rw [operandValue_condition, run_known]
    cases hinner : (operandValues context inner middle).1 with
    | error fault =>
      rw [hinner] at hnested
      have hfault : (operandValue context (.condition (.known operator) inner) middle).1
          = .error fault := congrArg Prod.fst hnested
      rw [operandValues_cons_of_error hfault, operandValues_append_of_error hinner, hnested]
    | ok innerValues =>
      obtain ⟨result, hresult⟩ := Operator.exists_apply_eq_ok h innerValues
      rw [hinner] at hnested
      have hvalue : (operandValue context (.condition (.known operator) inner) middle).1
          = .ok (.bool result) := by
        rw [hnested]
        show (operator.apply innerValues).map Json.bool = _
        rw [hresult]
        rfl
      rw [operandValues_cons_of_ok hvalue, operandValues_append_of_ok hinner, hnested]
      -- Behind the inner operands both go on in the same run.
      cases (operandValues context after (operandValues context inner middle).2).1 with
      | error fault => rfl
      | ok afterValues =>
        have happly := Operator.apply_spliced h values innerValues afterValues
        rw [hresult] at happly
        exact congrArg (·, _) happly

/-- An operand may be taken out for another one with the same value, calls and notices. -/
theorem run_condition_swapped {operand operand' : Expr}
    (h : operandValue context operand = operandValue context operand') (tag : OperatorTag)
    (before after : List Expr) :
    (Expr.condition tag (before ++ operand :: after)).run context
      = (Expr.condition tag (before ++ operand' :: after)).run context := by
  have hsame : ∀ operands : List Expr, List.Forall₂
      (fun a b => operandValue context a = operandValue context b) operands operands :=
    fun operands => List.forall₂_same.2 fun _ _ => rfl
  exact run_condition_of_operandValue (List.rel_append (hsame before) (.cons h (hsame after))) tag

/-- So may a part at any depth. The induction is on the way down to the part. -/
theorem operandValue_swapped {part part' a b : Expr}
    (hpart : operandValue context part = operandValue context part')
    (hswapped : Swapped part part' a b) : operandValue context a = operandValue context b := by
  induction hswapped with
  | here => exact hpart
  | operand tag before after _ ih =>
    funext run
    rw [operandValue_condition, operandValue_condition, run_condition_swapped ih]

/-- A condition anywhere in a tree may be taken out for another one that is evaluated alike. -/
theorem evaluate_swapped {tag tag' : OperatorTag} {operands operands' : List Expr} {a b : Expr}
    (hpart : (Expr.condition tag operands).run context
      = (Expr.condition tag' operands').run context)
    (hswapped : Swapped (.condition tag operands) (.condition tag' operands') a b) :
    a.evaluate context = b.evaluate context := by
  have hvalue : operandValue context (.condition tag operands)
      = operandValue context (.condition tag' operands') := by
    funext run
    rw [operandValue_condition, operandValue_condition, hpart]
  have hrun : a.run context = b.run context := by
    cases hswapped with
    | here => exact hpart
    | operand tag before after h =>
      exact run_condition_swapped (operandValue_swapped hvalue h) tag before after
  funext run
  rw [evaluate, evaluate, hrun]

/-! ### Operands with one value -/

/-- The normal form of the value that a tree gives as an operand, if it gives one. Which fault it is
does not matter here, since in another order another fault may come first. -/
def given? (context : Context σ) (start : Run σ) (expr : Expr) : Option Json :=
  ((operandValue context expr start).1.map Json.normal).toOption

variable {start : Run σ}

/-- A tree decides what it gives, and false when it gives nothing. A malformed root makes no
difference, since null counts as false. -/
theorem fst_evaluate_eq_given (context : Context σ) (expr : Expr) (start : Run σ) :
    (expr.evaluate context start).1 = ((expr.given? context start).map Json.truthy).getD false := by
  rw [fst_evaluate, given?]
  cases expr with
  | condition tag operands =>
    rw [operandValue_condition]
    cases ((Expr.condition tag operands).run context start).1 <;> rfl
  | leaf operand => exact (Json.truthy_normal _).symm
  | malformed raw => rfl

/-- After any calls a tree gives what it gave at the start. The state of the world may be another
one, but no function gives another value. -/
theorem given?_of_reached (h : context.Steady start.world) {run : Run σ}
    (hrun : context.Reaches start.world run.world) (expr : Expr) :
    expr.given? context run = expr.given? context start := by
  obtain ⟨hvalue, -⟩ := giveAlike_self h expr run start ⟨hrun, context.reaches_self _⟩
  rw [given?, given?, hvalue]

/-- A list of operands has the values that the operands give, or it has none because one of them
gives none. So the values of a list are known operand by operand, whatever is called in between. -/
theorem operandValues_given_cases (h : context.Steady start.world) {run : Run σ}
    (hrun : context.Reaches start.world run.world) (operands : List Expr) :
    (∃ values, (operandValues context operands run).1 = .ok values ∧
      operands.map (given? context start) = (values.map Json.normal).map some) ∨
    ∃ fault, (operandValues context operands run).1 = .error fault ∧
      none ∈ operands.map (given? context start) := by
  induction operands generalizing run with
  | nil => exact .inl ⟨[], rfl, rfl⟩
  | cons operand rest ih =>
    have hgiven := given?_of_reached h hrun operand
    cases hvalue : (operandValue context operand run).1 with
    | error fault =>
      have hnone : operand.given? context start = none := by
        rw [← hgiven, given?, hvalue]
        rfl
      refine .inr ⟨fault, ?_, ?_⟩
      · rw [operandValues_cons_of_error hvalue]
      · rw [List.map_cons, hnone]
        exact List.mem_cons_self
    | ok value =>
      have hsome : operand.given? context start = some value.normal := by
        rw [← hgiven, given?, hvalue]
        rfl
      -- The others give what they gave at the start, although this operand may have called.
      have hnext : context.Reaches start.world (operandValue context operand run).2.world := by
        rw [(visit_describes_operandValue context operand run).world]
        exact hrun.worldAfter _
      rcases ih hnext with ⟨values, hvalues, hmap⟩ | ⟨fault, hfault, hnone⟩
      · refine .inl ⟨value :: values, ?_, ?_⟩
        · rw [operandValues_cons_of_ok hvalue, hvalues]
          rfl
        · rw [List.map_cons, hsome, hmap]
          rfl
      · refine .inr ⟨fault, ?_, List.mem_cons_of_mem _ hnone⟩
        rw [operandValues_cons_of_ok hvalue, hfault]
        rfl

/-- A condition gives what its operator decides over the values, and nothing behind a fault. -/
theorem given?_known (context : Context σ) (start : Run σ) (operator : Operator)
    (operands : List Expr) :
    (Expr.condition (.known operator) operands).given? context start
      = ((operandValues context operands start).1.bind operator.apply).toOption.map .bool := by
  rw [given?, operandValue_condition, run_known]
  cases (operandValues context operands start).1.bind operator.apply <;> rfl

/-- Conditions with one operator give the same, when it decides the same over what their operands
give, and when both have an operand that gives nothing or none has. A fault in one list has to be
met by a fault in the other, which need not be the same one. -/
theorem given?_known_congr (h : context.Steady start.world) {operator : Operator}
    {operands others : List Expr}
    (hfault : none ∈ operands.map (given? context start) ↔ none ∈ others.map (given? context start))
    (happly : ∀ values otherValues : List Json,
      operands.map (given? context start) = (values.map Json.normal).map some →
      others.map (given? context start) = (otherValues.map Json.normal).map some →
      operator.apply values = operator.apply otherValues) :
    (Expr.condition (.known operator) operands).given? context start
      = (Expr.condition (.known operator) others).given? context start := by
  have hvalues : ∀ values : List Json, none ∉ (values.map Json.normal).map some := by simp
  rw [given?_known, given?_known]
  -- Either both lists have values, or both have an operand without one. The mixed cases contradict
  -- `hfault`.
  rcases operandValues_given_cases h (context.reaches_self _) operands with
    ⟨values, hok, hmap⟩ | ⟨fault, herror, hnone⟩
  · rcases operandValues_given_cases h (context.reaches_self _) others with
      ⟨otherValues, hotherOk, hotherMap⟩ | ⟨fault, -, hotherNone⟩
    · rw [hok, hotherOk]
      show (operator.apply values).toOption.map _ = (operator.apply otherValues).toOption.map _
      rw [happly values otherValues hmap hotherMap]
    · have hnone := hfault.2 hotherNone
      rw [hmap] at hnone
      exact absurd hnone (hvalues values)
  · rcases operandValues_given_cases h (context.reaches_self _) others with
      ⟨otherValues, -, hotherMap⟩ | ⟨otherFault, hotherError, -⟩
    · have hotherNone := hfault.1 hnone
      rw [hotherMap] at hotherNone
      exact absurd hotherNone (hvalues otherValues)
    · rw [herror, hotherError]
      rfl

/-- Conditions give the same when their operands do, one by one. -/
theorem given?_condition_congr (h : context.Steady start.world) {operands others : List Expr}
    (hgiven : operands.map (given? context start) = others.map (given? context start))
    (tag : OperatorTag) :
    (Expr.condition tag operands).given? context start
      = (Expr.condition tag others).given? context start := by
  cases tag with
  | unknown text => rfl
  | known operator =>
    refine given?_known_congr h (by rw [hgiven]) fun values otherValues hmap hotherMap => ?_
    -- What the operands give are the normal forms of their values, one by one.
    have hnormal : values.map Json.normal = otherValues.map Json.normal :=
      (List.map_inj_right fun _ _ => Option.some.inj).1 (hmap.symm.trans (hgiven.trans hotherMap))
    rw [← operator.apply_normal values, hnormal, operator.apply_normal]

/-- Trees that differ in one part give the same when the parts do. It is `evaluate_swapped` for what
is left when calls and notices may differ. -/
theorem given?_swapped (h : context.Steady start.world) {part part' a b : Expr}
    (hpart : part.given? context start = part'.given? context start)
    (hswapped : Swapped part part' a b) : a.given? context start = b.given? context start := by
  induction hswapped with
  | here => exact hpart
  | operand tag before after _ ih =>
    refine given?_condition_congr h ?_ tag
    rw [List.map_append, List.map_append, List.map_cons, List.map_cons, ih]

/-- An `and` or an `or` gives the same over the same operands, in any order and as often as they are
there. The first hypothesis of `given?_known_congr` is about membership, and so is the second. -/
theorem given?_connective (h : context.Steady start.world) {operator : Operator}
    (hoperator : operator = .and ∨ operator = .or) {operands others : List Expr}
    (hmem : ∀ operand, operand ∈ operands ↔ operand ∈ others) :
    (Expr.condition (.known operator) operands).given? context start
      = (Expr.condition (.known operator) others).given? context start := by
  have hgiven : ∀ given, given ∈ operands.map (given? context start) ↔
      given ∈ others.map (given? context start) := by
    intro given
    simp only [List.mem_map, hmem]
  refine given?_known_congr h (hgiven none) fun values otherValues hmap hotherMap => ?_
  refine Operator.apply_eq_of_mem_normal hoperator fun normal => ?_
  -- A normal form is one of the values when an operand gives it.
  have hsome : ∀ values : List Json, normal ∈ values.map Json.normal ↔
      some normal ∈ (values.map Json.normal).map some := by
    simp
  rw [hsome, hsome, ← hmap, ← hotherMap]
  exact hgiven (some normal)

/-- **`and` and `or` are about a set of operands.** The operands may be of any kind, also values
that are no nodes and conditions that fail, and the condition may stand anywhere in a tree.

* An `and` inside of an `and` may be taken out for its own operands, at any place among the others
  and also when it has none, and likewise an `or` inside of an `or`. The tree decides the same, with
  the same calls and notices, whatever the functions give.
* Let the functions give the same on every call. The operands may then be put in any order, and each
  may be repeated any number of times: over the same set of operands the tree decides the same. -/
theorem connective_of_same_operands {operator : Operator}
    (hoperator : operator = .and ∨ operator = .or) (context : Context σ) (start : Run σ) :
    (∀ (before inner after : List Expr) (tree spliced : Expr),
      Swapped (.condition (.known operator) (before ++ .condition (.known operator) inner :: after))
        (.condition (.known operator) (before ++ inner ++ after)) tree spliced →
      spliced.evaluate context start = tree.evaluate context start) ∧
    (context.Steady start.world → ∀ (operands others : List Expr) (tree other : Expr),
      (∀ operand, operand ∈ operands ↔ operand ∈ others) →
      Swapped (.condition (.known operator) operands) (.condition (.known operator) others)
        tree other →
      (other.evaluate context start).1 = (tree.evaluate context start).1) := by
  constructor
  · intro before inner after tree spliced hswapped
    rw [evaluate_swapped (run_spliced hoperator before inner after) hswapped]
  · intro h operands others tree other hmem hswapped
    have hgiven := given?_swapped h (given?_connective h hoperator hmem) hswapped
    rw [fst_evaluate_eq_given, fst_evaluate_eq_given, hgiven]

/-- The function counts its calls and gives one text each time. A nested `or` with an empty `or` and
a failing condition is taken out below a negation: both trees call twice and fail. In the other list
an operand is moved and repeated, and the `or` decides true, with one call more. -/
theorem connective_of_same_operands_of_lacking :
    let mode : Callable Nat := fun calls => (.value (.str "auto"), calls + 1)
    let context := Context.empty.setFunction "mode" mode
    let start := Run.start 0
    let call := Expr.leaf (.ofFunction "mode")
    let odd := Expr.malformed .null
    let lacking := Expr.condition (.known .gt) [call]
    let either := fun operands : List Expr => Expr.condition (.known .or) operands
    let never := fun operand : Expr => Expr.condition (.known .not) [operand]
    let tree := never (either [odd, either [call, either [], lacking], call])
    let spliced := never (either [odd, call, either [], lacking, call])
    context.Steady start.world ∧
      spliced.evaluate context start = tree.evaluate context start ∧
      (tree.evaluate context start).2.calls = ["mode", "mode"] ∧
      ((either [call, odd, call]).evaluate context start).1
        = ((either [odd, call]).evaluate context start).1 ∧
      ((either [odd, call]).evaluate context start).1 = true := by
  intro mode context start call odd lacking either never tree spliced
  have hsteady : context.Steady start.world := by
    intro name function hfunction reached _
    simp only [context, Context.function?, Context.setFunction, Bindings.get?_insert] at hfunction
    split at hfunction
    · cases hfunction
      rfl
    · cases hfunction
  have hmem : ∀ operand, operand ∈ [odd, call] ↔ operand ∈ [call, odd, call] := by
    intro operand
    simp only [List.mem_cons, List.not_mem_nil, or_false]
    tauto
  obtain ⟨hspliced, hreordered⟩ := connective_of_same_operands (.inr rfl) context start
  exact ⟨hsteady, hspliced [odd] [call, either [], lacking] [call] tree spliced
      (.operand _ [] [] .here), rfl, hreordered hsteady _ _ _ _ hmem .here, rfl⟩

end Expr

end EdgeGuard
