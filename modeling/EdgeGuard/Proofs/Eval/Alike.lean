import EdgeGuard.Proofs.Eval.Visits
import EdgeGuard.Proofs.Json.Equal
import Mathlib.Data.List.Forall2

/-!
# `EdgeGuard.Proofs.Eval.Alike`: equal values decide alike

Values that `eq` takes to be equal cannot be told apart by any condition. No operator sees more of
its values than their normal forms (`Operator.apply_normal`), and the normal form commutes with the
way down a path (`Json.descend_normal`). So the evaluation of two trees that differ only in values
that are equal gives values of the same normal forms, step by step.

Two contexts may have states of the world of different types. A relation between the states says
when the worlds of both are at the same point: in states that are related, corresponding calls
both fail or give equal values, and they leave states that are related again.

* `giveAlike_condition`: conditions give values of one normal form as operands when their operands
  do, and `run_eq_of_giveAlike`: then they decide the same.
* `evaluate_eq_of_alike`: trees that are alike decide the same in contexts that are alike.
-/

set_option autoImplicit false

namespace EdgeGuard

variable {σ τ : Type}

/-! ### What is alike -/

/-- Two values that a condition takes to be equal. The objects in them are those of a running
program: each has its names in order. -/
structure Json.Alike (a b : Json) : Prop where
  left : a.Ordered
  right : b.Ordered
  equal : a.equals b = true

/-- Two calls give values that are alike, or both give none: each fails or panics. A failure and a
panic count as the same, since a condition gets null from both. -/
inductive Outcome.Alike : Outcome → Outcome → Prop
  | value {a b : Json} (h : a.Alike b) : Alike (.value a) (.value b)
  | fails {a b : Outcome} (ha : ∀ result, a ≠ .value result) (hb : ∀ result, b ≠ .value result) :
      Alike a b

/-- Contexts with values that are alike under the same names, and with functions under the same
names whose calls are alike when the worlds are at the same point. The relation of the worlds is
kept by every pair of calls, so it holds all the way through an evaluation. -/
structure Context.Alike (related : σ → τ → Prop) (context : Context σ) (other : Context τ) :
    Prop where
  values : ∀ name, Option.Rel Json.Alike (context.values.get? name) (other.values.get? name)
  functions : ∀ name, Option.Rel
    (fun (function : Callable σ) (otherFunction : Callable τ) => ∀ world otherWorld,
      related world otherWorld → (function world).1.Alike (otherFunction otherWorld).1 ∧
        related (function world).2 (otherFunction otherWorld).2)
    (context.function? name) (other.function? name)

/-- Leaves of one kind: constants that are alike, or variables or functions of one name. Of a
variable or a function only the name counts, so its value may be anything that has the same name. -/
structure Operand.Alike (a b : Operand) : Prop where
  kind : a.kind = b.kind
  value : a.kind = .constant → a.value.Alike b.value
  name : a.kind ≠ .constant → a.name? = b.name?

/-- Trees of one shape with the same operators, with leaves that are alike, and with values that
are no nodes in the same places. -/
inductive Expr.Alike : Expr → Expr → Prop
  | condition (tag : OperatorTag) {operands others : List Expr}
      (h : List.Forall₂ Alike operands others) :
      Alike (.condition tag operands) (.condition tag others)
  | leaf {operand other : Operand} (h : operand.Alike other) : Alike (.leaf operand) (.leaf other)
  | malformed (raw other : Json) : Alike (.malformed raw) (.malformed other)

/-- Options in a relation are both empty or both filled. It turns the relation into the two cases of
a proof by cases on both options. -/
theorem rel_cases {α β : Type} {r : α → β → Prop} {x : Option α} {y : Option β}
    (h : Option.Rel r x y) :
    (x = none ∧ y = none) ∨ ∃ a b, x = some a ∧ y = some b ∧ r a b := by
  cases h with
  | none => exact .inl ⟨rfl, rfl⟩
  | some h => exact .inr ⟨_, _, rfl, rfl, h⟩

/-- Results of which the same is made are one fault or two values. Faults are compared as they are
and values by what is made of them. -/
theorem map_eq_map_cases {ε α β γ : Type} {first : Except ε α} {second : Except ε β} {f : α → γ}
    {g : β → γ} (h : first.map f = second.map g) :
    (∃ fault, first = .error fault ∧ second = .error fault) ∨
      ∃ a b, first = .ok a ∧ second = .ok b ∧ f a = g b := by
  cases first with
  | error fault =>
    cases second with
    | error other =>
      injection h with heq
      exact .inl ⟨fault, rfl, congrArg _ heq.symm⟩
    | ok b => cases h
  | ok a =>
    cases second with
    | error other => cases h
    | ok b =>
      injection h with heq
      exact .inr ⟨a, b, rfl, rfl, heq⟩

/-! ### What is seen of a value -/

namespace Json

/-- Values that are alike have one normal form. This is the only step that uses the order of their
fields. -/
theorem Alike.normal_eq {a b : Json} (h : a.Alike b) : a.normal = b.normal :=
  normal_eq_of_equals h.left h.right h.equal

/-- Values that are alike, or none, have the same normal form, or none. -/
theorem map_normal_of_rel {a b : Option Json} (h : Option.Rel Alike a b) :
    a.map normal = b.map normal := by
  cases h with
  | none => rfl
  | some h => exact congrArg some h.normal_eq

/-- The way down a path leads to the normal form of what it leads to. Keys of objects are not
touched by normal forms, so the path finds the same fields. -/
theorem descend_normal (value : Json) (names : List String) :
    value.normal.descend names = (value.descend names).map normal := by
  induction names generalizing value with
  | nil => rfl
  | cons name names ih =>
    rw [descend, descend, field?_normal]
    cases value.field? name with
    | none => rfl
    | some inner => exact ih inner

/-- A value counts as true or false by its normal form. -/
theorem truthy_normal (value : Json) : value.normal.truthy = value.truthy := by
  cases value with
  | num value => simp [normal, truthy]
  | arr items => cases items <;> rfl
  | obj fields => cases fields <;> rfl
  | _ => rfl

/-- Only null has the normal form of null. -/
theorem normal_beq_null (value : Json) : (value.normal == .null) = (value == .null) := by
  cases value <;> rfl

/-- The order of two values is seen in their normal forms. Numbers keep their doubles, and strings
stay as they are. -/
theorem order?_normal (a b : Json) : order? a.normal b.normal = order? a b := by
  -- Only numbers change in a way that their order could see, and they keep their doubles.
  cases a with
  | num value => cases b <;> simp [normal, order?]
  | _ => cases b <;> rfl

/-- A text is its own normal form, and nothing else becomes a text. -/
theorem textsRelate_normal (relation : List Char → List Char → Bool) (a b : Json) :
    textsRelate relation a.normal b.normal = textsRelate relation a b := by
  cases a with
  | str text => cases b <;> rfl
  | _ => cases b <;> rfl

/-- Membership is seen in the normal forms, since the comparison with each item is. The items of the
normal form are the normal forms of the items. -/
theorem member?_normal (item list : Json) : item.normal.member? list.normal = item.member? list := by
  cases list with
  | arr items =>
    have hany : ∀ items : List Json, (items.map normal).any (fun value => equals value item.normal)
        = items.any fun value => equals value item := by
      intro items
      rw [List.any_map]
      exact congrArg items.any (funext fun value => equals_normal value item)
    rw [normal, normalItems_eq_map, member?, member?, hany]
  | _ => rfl

end Json

namespace Operator

/-- The value that an operator takes is taken from the normal forms as its normal form. -/
theorem single_normal (operator : Operator) (values : List Json) :
    single operator (values.map Json.normal) = (single operator values).map Json.normal := by
  cases values <;> rfl

/-- So are the two values that an operator takes. -/
theorem pair_normal (operator : Operator) (values : List Json) :
    pair operator (values.map Json.normal)
      = (pair operator values).map fun values => (values.1.normal, values.2.normal) := by
  match values with
  | [] | [_] | _ :: _ :: _ => rfl

/-- A relation sees no more of two values than their normal forms. -/
theorem relation_normal (operator : Operator) (a b : Json) :
    operator.relation a.normal b.normal = operator.relation a b := by
  cases operator with
  | eq | neq => simp only [relation, Json.equals_normal]
  | gt | lt | gte | lte => simp only [relation, Json.orderedBy, Json.order?_normal]
  | contains | startsWith | endsWith => simp only [relation, Json.textsRelate_normal]
  | isIn | notIn => simp only [relation, Json.member?_normal]
  | and | or | not | isNull | isNotNull => rfl

/-- An operator sees no more of its values than their normal forms. It looks at all of them, at one
or at two, and the lemmas above are about what it sees there. -/
theorem apply_normal (operator : Operator) (values : List Json) :
    operator.apply (values.map Json.normal) = operator.apply values := by
  -- The operators differ in what they take: all values, one, or two.
  have htruthy : Json.truthy ∘ Json.normal = Json.truthy := funext Json.truthy_normal
  cases operator with
  | and | or => simp only [apply, List.all_map, List.any_map, htruthy]
  | not | isNull | isNotNull =>
    simp only [apply, single_normal, bne]
    cases single _ values with
    | error fault => rfl
    | ok value => simp only [Except.map, Json.truthy_normal, Json.normal_beq_null]
  | _ =>
    simp only [apply, pair_normal]
    cases pair _ values with
    | error fault => rfl
    | ok values => simp only [Except.map, relation_normal]

/-- Results with values of the same normal forms are taken further to the same decision. This is the
step from the operands of a condition to its decision. -/
theorem bind_apply_congr {operator : Operator} {first second : Except EvalFault (List Json)}
    (h : first.map (List.map Json.normal) = second.map (List.map Json.normal)) :
    first.bind operator.apply = second.bind operator.apply := by
  have hseen : ∀ result : Except EvalFault (List Json),
      (result.map (List.map Json.normal)).bind operator.apply = result.bind operator.apply := by
    intro result
    cases result with
    | error fault => rfl
    | ok values => exact apply_normal operator values
  rw [← hseen first, ← hseen second, h]

end Operator

/-! ### Leaves -/

namespace Context

/-- A name is looked up as it is, and then as a path if it has a dot. With the two ways in one
equation, each is handled by itself. -/
theorem lookup_eq_or (context : Context σ) (name : String) :
    context.lookup name = (context.values.get? name).or
      (if '.' ∈ name.toList then context.atPath? (path name) else none) := by
  unfold lookup
  cases context.values.get? name <;> rfl

/-- Paths lead to values of the same normal forms. The first part is a variable in both contexts or
in neither. -/
theorem Alike.map_atPath? {related : σ → τ → Prop} {context : Context σ} {other : Context τ}
    (h : context.Alike related other) (names : List String) :
    (context.atPath? names).map Json.normal = (other.atPath? names).map Json.normal := by
  cases names with
  | nil => rfl
  | cons first names =>
    have hdescend : ∀ found : Option Json,
        (found.bind fun value => value.descend names).map Json.normal
          = (found.map Json.normal).bind fun value => value.descend names := by
      intro found
      cases found with
      | none => rfl
      | some value => exact (Json.descend_normal value names).symm
    rw [atPath?, atPath?, hdescend, hdescend, Json.map_normal_of_rel (h.values first)]

/-- Names lead to values of the same normal forms, also those that are paths. -/
theorem Alike.map_lookup {related : σ → τ → Prop} {context : Context σ} {other : Context τ}
    (h : context.Alike related other) (name : String) :
    (context.lookup name).map Json.normal = (other.lookup name).map Json.normal := by
  rw [lookup_eq_or, lookup_eq_or, Option.map_or, Option.map_or,
    Json.map_normal_of_rel (h.values name)]
  split
  · rw [h.map_atPath?]
  · rfl

end Context

namespace Operand

/-- A call that gives no value is settled to null. -/
theorem settle_of_fails (name : String) (run : Run σ) {outcome : Outcome}
    (h : ∀ result, outcome ≠ .value result) : (settle name run outcome).1 = .null := by
  cases outcome with
  | value result => exact absurd rfl (h result)
  | failure message => rfl
  | panic => rfl

/-- Calls that are alike are settled to values of one normal form. The notices are not compared:
they may tell a failure from a panic. -/
theorem normal_settle {outcome other : Outcome} (h : outcome.Alike other) (name : String)
    (run : Run σ) (otherRun : Run τ) :
    (settle name run outcome).1.normal = (settle name otherRun other).1.normal := by
  cases h with
  | value h => exact h.normal_eq
  | fails ha hb => rw [settle_of_fails name run ha, settle_of_fails name otherRun hb]

variable {related : σ → τ → Prop} {context : Context σ} {other : Context τ}

/-- Functions of one name give values of one normal form, and leave the worlds at the same point.
Both contexts have a function of the name or neither has. -/
theorem resolveFunction_alike (h : context.Alike related other) {a b : Operand}
    (hname : a.name? = b.name?) {start : Run σ} {otherStart : Run τ}
    (hworld : related start.world otherStart.world) :
    (a.resolveFunction context start).1.normal = (b.resolveFunction other otherStart).1.normal ∧
      related (a.resolveFunction context start).2.world
        (b.resolveFunction other otherStart).2.world := by
  cases hfound : b.name? with
  | none => simpa [resolveFunction, hname, hfound, Run.note] using hworld
  | some name =>
    rcases rel_cases (h.functions name) with
      ⟨hnone, hotherNone⟩ | ⟨function, otherFunction, hsome, hotherSome, hcalls⟩
    · rw [resolveFunction_of_none (hname.trans hfound) hnone,
        resolveFunction_of_none hfound hotherNone]
      exact ⟨rfl, hworld⟩
    · obtain ⟨houtcome, hnext⟩ := hcalls _ _ hworld
      rw [resolveFunction_of_some (hname.trans hfound) hsome,
        resolveFunction_of_some hfound hotherSome]
      refine ⟨normal_settle houtcome _ _ _, ?_⟩
      rw [(settle_calls_world ..).2, (settle_calls_world ..).2]
      exact hnext

/-- Leaves that are alike give values of one normal form, and leave the worlds at the same point.
Variables make no calls, so their worlds stay where they are. -/
theorem resolve_alike (h : context.Alike related other) {a b : Operand} (halike : a.Alike b)
    {start : Run σ} {otherStart : Run τ} (hworld : related start.world otherStart.world) :
    (a.resolve context start).1.normal = (b.resolve other otherStart).1.normal ∧
      related (a.resolve context start).2.world (b.resolve other otherStart).2.world := by
  have hkind := halike.kind
  cases hfound : a.kind with
  | constant =>
    rw [resolve, resolve, ← hkind, hfound]
    exact ⟨(halike.value hfound).normal_eq, hworld⟩
  | «variable» =>
    have hname := halike.name (by simp [hfound])
    rw [resolve, resolve, ← hkind, hfound]
    refine ⟨?_, hworld⟩
    show (resolveVariable context a).normal = (resolveVariable other b).normal
    rw [resolveVariable, resolveVariable, hname]
    cases b.name? with
    | none => rfl
    | some name =>
      -- A variable that is not found is null on both sides, and null is its own normal form.
      have hnull : ∀ found : Option Json,
          (found.getD .null).normal = (found.map Json.normal).getD .null := by
        intro found
        cases found <;> rfl
      rw [hnull, hnull]
      exact congrArg (Option.getD · .null) (h.map_lookup name)
  | function =>
    have hname := halike.name (by simp [hfound])
    rw [resolve, resolve, ← hkind, hfound]
    exact resolveFunction_alike h hname hworld

end Operand

/-! ### Trees -/

namespace Expr

variable {related : σ → τ → Prop} {context : Context σ} {other : Context τ}

/-- Two operands give values of one normal form or the same fault, and leave the worlds at the same
point, whenever they start there. It is stated for all starts at the same point, so that it can be
used behind other operands. -/
def GiveAlike (related : σ → τ → Prop) (context : Context σ) (other : Context τ) (a b : Expr) :
    Prop :=
  ∀ (start : Run σ) (otherStart : Run τ), related start.world otherStart.world →
    (operandValue context a start).1.map Json.normal
        = (operandValue other b otherStart).1.map Json.normal ∧
      related (operandValue context a start).2.world (operandValue other b otherStart).2.world

/-- Lists of operands give values of the same normal forms when each operand does. The worlds are at
the same point behind each operand, so the induction goes on from there. -/
theorem operandValues_alike {operands others : List Expr}
    (h : List.Forall₂ (GiveAlike related context other) operands others) {start : Run σ}
    {otherStart : Run τ} (hworld : related start.world otherStart.world) :
    (operandValues context operands start).1.map (List.map Json.normal)
        = (operandValues other others otherStart).1.map (List.map Json.normal) ∧
      related (operandValues context operands start).2.world
        (operandValues other others otherStart).2.world := by
  induction h generalizing start otherStart with
  | nil => exact ⟨rfl, hworld⟩
  | cons hfirst _ ih =>
    obtain ⟨hvalue, hmiddle⟩ := hfirst start otherStart hworld
    rcases map_eq_map_cases hvalue with
      ⟨fault, hleft, hright⟩ | ⟨value, otherValue, hleft, hright, hnormal⟩
    · rw [operandValues_cons_of_error hleft, operandValues_cons_of_error hright]
      exact ⟨rfl, hmiddle⟩
    · -- The others start where the first operand left both worlds.
      obtain ⟨hvalues, hlast⟩ := ih hmiddle
      rw [operandValues_cons_of_ok hleft, operandValues_cons_of_ok hright]
      refine ⟨?_, hlast⟩
      have hcons : ∀ (value : Json) (rest : Except EvalFault (List Json)),
          (rest.map (value :: ·)).map (List.map Json.normal)
            = (rest.map (List.map Json.normal)).map (value.normal :: ·) := by
        intro value rest
        cases rest <;> rfl
      rw [hcons, hcons, hvalues, hnormal]

/-- Conditions with the same operator decide the same when their operands give values of the same
normal forms. -/
theorem run_condition_alike {operands others : List Expr}
    (h : List.Forall₂ (GiveAlike related context other) operands others) (tag : OperatorTag)
    {start : Run σ} {otherStart : Run τ} (hworld : related start.world otherStart.world) :
    ((Expr.condition tag operands).run context start).1
        = ((Expr.condition tag others).run other otherStart).1 ∧
      related ((Expr.condition tag operands).run context start).2.world
        ((Expr.condition tag others).run other otherStart).2.world := by
  cases tag with
  | unknown text => exact ⟨rfl, hworld⟩
  | known operator =>
    obtain ⟨hvalues, hlast⟩ := operandValues_alike h hworld
    rw [run_known, run_known]
    exact ⟨Operator.bind_apply_congr hvalues, hlast⟩

/-- Conditions with one operator give values of one normal form when their operands do. -/
theorem giveAlike_condition {operands others : List Expr}
    (h : List.Forall₂ (GiveAlike related context other) operands others) (tag : OperatorTag) :
    GiveAlike related context other (.condition tag operands) (.condition tag others) := by
  intro start otherStart hworld
  obtain ⟨hdecided, hlast⟩ := run_condition_alike h tag hworld
  rw [operandValue_condition, operandValue_condition, hdecided]
  exact ⟨rfl, hlast⟩

/-- A tree decides the truth value of what it gives as an operand. A malformed root is left out, as
it is a fault and would count as null. -/
theorem fst_run_eq (context : Context σ) {expr : Expr} (h : ∀ raw, expr ≠ .malformed raw)
    (start : Run σ) :
    (expr.run context start).1 = (operandValue context expr start).1.map Json.truthy := by
  cases expr with
  | condition tag operands =>
    rw [operandValue_condition]
    cases ((Expr.condition tag operands).run context start).1 <;> rfl
  | leaf operand => rfl
  | malformed raw => exact absurd rfl (h raw)

/-- Trees that give values of one normal form decide the same. -/
theorem run_eq_of_giveAlike {a b : Expr} (h : GiveAlike related context other a b)
    (ha : ∀ raw, a ≠ .malformed raw) (hb : ∀ raw, b ≠ .malformed raw) {start : Run σ}
    {otherStart : Run τ} (hworld : related start.world otherStart.world) :
    (a.run context start).1 = (b.run other otherStart).1 := by
  have htruthy : ∀ given : Except EvalFault Json,
      given.map Json.truthy = (given.map Json.normal).map Json.truthy := by
    intro given
    cases given with
    | error fault => rfl
    | ok value => exact congrArg Except.ok value.truthy_normal.symm
  obtain ⟨hvalue, -⟩ := h start otherStart hworld
  rw [fst_run_eq context ha, fst_run_eq other hb, htruthy, hvalue, ← htruthy]

/-- Operands that are alike give values of one normal form in contexts that are alike. The induction
is on the pair of trees, with `giveAlike_condition` as its step. -/
theorem operandValue_alike (hcontext : context.Alike related other) {a b : Expr}
    (h : a.Alike b) : GiveAlike related context other a b := by
  -- The induction is on the first tree. The second one has the same shape.
  induction a generalizing b with
  | condition tag operands ih =>
    cases h with
    | @condition _ _ others hoperands =>
      have hboth := (List.forall₂_and_left operands others).2
        ⟨fun operand hmem other (halike : operand.Alike other) => ih operand hmem halike, hoperands⟩
      have hall := hboth.imp fun operand other ⟨hgive, halike⟩ => hgive other halike
      exact giveAlike_condition hall tag
  | leaf operand =>
    cases h with
    | leaf hleaf =>
      intro start otherStart hworld
      obtain ⟨hvalue, hlast⟩ := Operand.resolve_alike hcontext hleaf hworld
      exact ⟨congrArg Except.ok hvalue, hlast⟩
  | malformed raw =>
    cases h with
    | malformed _ otherRaw =>
      intro start otherStart hworld
      exact ⟨rfl, hworld⟩

/-- Trees that are alike are evaluated to the same decision or the same fault in contexts that are
alike. -/
theorem run_eq_of_alike (hcontext : context.Alike related other) {a b : Expr} (h : a.Alike b)
    {start : Run σ} {otherStart : Run τ} (hworld : related start.world otherStart.world) :
    (a.run context start).1 = (b.run other otherStart).1 := by
  -- A malformed root is a fault on both sides. Any other root is decided by its value as an
  -- operand.
  have hgive := operandValue_alike hcontext h
  cases h with
  | condition => exact run_eq_of_giveAlike hgive (by simp) (by simp) hworld
  | leaf => exact run_eq_of_giveAlike hgive (by simp) (by simp) hworld
  | malformed => rfl

/-- **Equal values cannot be told apart by a condition.** Let two trees have the same shape, the
same operators and kinds of leaves, the same names in their variables and functions, and equal
constants. Let two contexts bind the same variables to equal values, and have functions under the
same names whose corresponding calls both give no value or give equal values. Then the two trees
decide the same, each in its context. -/
theorem evaluate_eq_of_alike (hcontext : context.Alike related other) {a b : Expr}
    (h : a.Alike b) {start : Run σ} {otherStart : Run τ}
    (hworld : related start.world otherStart.world) :
    (a.evaluate context start).1 = (b.evaluate other otherStart).1 := by
  rw [fst_evaluate, fst_evaluate, run_eq_of_alike hcontext h hworld]

/-- One side has the integer `0` in a variable and a constant, the other side has the double `-0.0`
there. The function fails on one side and panics on the other. Both trees decide the same, with the
variable found by a path. -/
theorem evaluate_eq_of_alike_of_double :
    let whole := Json.num (.ofNat 0)
    let double := Json.num (.float (.zero true))
    let off : Callable Nat := fun calls => (.failure "offline", calls + 1)
    let boom : Callable Unit := fun world => (.panic, world)
    let context := (Context.empty.setVariable "device" (.obj [("temp", whole)])).setFunction "f" off
    let other := (Context.empty.setVariable "device" (.obj [("temp", double)])).setFunction "f" boom
    let tree := fun value : Json => Expr.condition (.known .and)
      [.condition (.known .eq) [.leaf (.ofVariable "device.temp"), .leaf (.ofConstant value)],
        .condition (.known .isNull) [.leaf (.ofFunction "f")]]
    whole ≠ double ∧
      ((tree whole).evaluate context (Run.start 0)).1
        = ((tree double).evaluate other (Run.start ())).1 ∧
      ((tree whole).evaluate context (Run.start 0)).1 = true := by
  intro whole double off boom context other tree
  have hvalue : whole.Alike double := ⟨trivial, trivial, rfl⟩
  have hordered : ∀ value : Number, (Json.obj [("temp", .num value)]).Ordered := by
    intro value
    exact ⟨List.pairwise_singleton _ _, trivial, trivial⟩
  have hdevice : (Json.obj [("temp", whole)]).Alike (.obj [("temp", double)]) :=
    ⟨hordered _, hordered _, rfl⟩
  -- The calls of both are alike in any worlds, so all worlds are related.
  have hcontext : context.Alike (fun _ _ => True) other := by
    constructor
    · intro name
      simp only [context, other, Context.setFunction, Context.get?_setVariable]
      split
      · exact .some hdevice
      · exact .none
    · intro name
      simp only [context, other, Context.function?, Context.setFunction, Bindings.get?_insert]
      split
      · refine .some fun world otherWorld _ => ⟨.fails ?_ ?_, trivial⟩
        · intro result heq
          cases heq
        · intro result heq
          cases heq
      · exact .none
  have hpath : (Operand.ofVariable "device.temp").Alike (.ofVariable "device.temp") :=
    ⟨rfl, fun hkind => absurd hkind (by decide), fun _ => rfl⟩
  have hconstant : (Operand.ofConstant whole).Alike (.ofConstant double) :=
    ⟨rfl, fun _ => hvalue, fun hkind => absurd rfl hkind⟩
  have hcall : (Operand.ofFunction "f").Alike (.ofFunction "f") :=
    ⟨rfl, fun hkind => absurd hkind (by decide), fun _ => rfl⟩
  have htree : (tree whole).Alike (tree double) :=
    .condition _ (.cons (.condition _ (.cons (.leaf hpath) (.cons (.leaf hconstant) .nil)))
      (.cons (.condition _ (.cons (.leaf hcall) .nil)) .nil))
  exact ⟨by decide, evaluate_eq_of_alike hcontext htree trivial, rfl⟩

end Expr

end EdgeGuard
