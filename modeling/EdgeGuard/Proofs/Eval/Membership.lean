import EdgeGuard.Proofs.Eval.Operands
import EdgeGuard.Proofs.Json.Equivalence

/-!
# `EdgeGuard.Proofs.Eval.Membership`: membership is a disjunction of equalities

`in` compares each item of the list with the value that is looked for, and `eq` compares the value
with the item. So the two agree because the equality of values has no side (`Json.equals_comm`),
also where items are arrays and objects. This needs objects that have no name twice, which the values
of a running program are (`Json.UniqueNames`). A value that is found by a path in a variable is a part
of such a value (`Context.UniqueNames.lookup`).

* `exists_settled_leaf`: a variable or constant has one value, and calls nothing.
* `evaluate_membership`: `in` and `notIn` as conditions over `eq` and `neq`, and without a list.
-/

set_option autoImplicit false

namespace EdgeGuard

variable {σ : Type}

/-! ### Values without repeated names -/

namespace Json

/-- An object with one field has no name twice. -/
theorem UniqueNames.single (name : String) {value : Json} (h : value.UniqueNames) :
    (Json.obj [(name, value)]).UniqueNames := by
  refine .obj (List.nodup_singleton _) fun field hmem => ?_
  rw [List.mem_singleton.1 hmem]
  exact h

/-- Neither has the value of a field. -/
theorem UniqueNames.field? {value inner : Json} {name : String} (h : value.UniqueNames)
    (hfield : value.field? name = some inner) : inner.UniqueNames := by
  cases h with
  | obj _ each => exact each (name, inner) (Bindings.mem_of_get? hfield)
  | _ => cases hfield

/-- The value at the end of a path is a part of the value at its start. The induction is on the
path, and each step goes to the value of a field. -/
theorem UniqueNames.descend {value inner : Json} {names : List String} (h : value.UniqueNames)
    (hpath : value.descend names = some inner) : inner.UniqueNames := by
  induction names generalizing value with
  | nil =>
    cases hpath
    exact h
  | cons name names ih =>
    rw [Json.descend] at hpath
    -- Each name leads into a field, which has no repeated names either.
    cases hfield : value.field? name with
    | none =>
      rw [hfield] at hpath
      cases hpath
    | some next =>
      rw [hfield] at hpath
      exact ih (h.field? hfield) hpath

/-- A comparison gives the same from both sides. It is `equals_symm` in both directions. -/
theorem equals_comm {a b : Json} (ha : a.UniqueNames) (hb : b.UniqueNames) :
    a.equals b = b.equals a := by
  rw [Bool.eq_iff_iff]
  exact ⟨equals_symm ha hb, equals_symm hb ha⟩

/-- A value is in a list when it is equal to an item, compared from the side of the value. `in`
compares from the side of the items, and `eq` from the side of the value. -/
theorem member?_arr {value : Json} {items : List Json} (hvalue : value.UniqueNames)
    (hitems : ∀ item ∈ items, item.UniqueNames) :
    value.member? (.arr items) = some (items.any fun item => value.equals item) := by
  have hany : items.any (fun item => item.equals value) = items.any fun item => value.equals item := by
    rw [Bool.eq_iff_iff, List.any_eq_true, List.any_eq_true]
    refine exists_congr fun item => and_congr_right fun hmem => ?_
    rw [equals_comm (hitems item hmem) hvalue]
  rw [member?, hany]

/-- Nothing is in a value that is no list, and nothing is outside of it. -/
theorem member?_of_not_list {list : Json} (h : ∀ items, list ≠ .arr items) (item : Json) :
    item.member? list = none := by
  cases list with
  | arr items => exact absurd rfl (h items)
  | _ => rfl

end Json

namespace Context

/-- No object in a variable has two fields of one name. -/
def UniqueNames (context : Context σ) : Prop :=
  ∀ name value, context.values.get? name = some value → value.UniqueNames

/-- A context without variables has no repeated names. -/
theorem uniqueNames_empty : (empty : Context σ).UniqueNames := by
  intro name value h
  cases h

/-- Setting a variable to a value without repeated names brings in none. -/
theorem UniqueNames.setVariable {context : Context σ} (h : context.UniqueNames) (name : String)
    {value : Json} (hvalue : value.UniqueNames) : (context.setVariable name value).UniqueNames := by
  intro query found hfound
  rw [get?_setVariable] at hfound
  split at hfound
  · cases hfound
    exact hvalue
  · exact h query found hfound

/-- Neither has the value at the end of a path. -/
theorem UniqueNames.atPath? {context : Context σ} (h : context.UniqueNames) {names : List String}
    {value : Json} (hpath : context.atPath? names = some value) : value.UniqueNames := by
  cases names with
  | nil => cases hpath
  | cons first names =>
    obtain ⟨whole, hwhole, hinner⟩ := Option.bind_eq_some_iff.1 hpath
    exact (h first whole hwhole).descend hinner

/-- Neither has the value that a name leads to, as it is or as a path. -/
theorem UniqueNames.lookup {context : Context σ} (h : context.UniqueNames) {name : String}
    {value : Json} (hlookup : context.lookup name = some value) : value.UniqueNames := by
  unfold Context.lookup at hlookup
  split at hlookup
  · next found hfound =>
    cases hlookup
    exact h name _ hfound
  · split at hlookup
    · exact h.atPath? hlookup
    · cases hlookup

end Context

namespace Operator

/-- `in` is a disjunction of equalities. -/
theorem isIn_apply {value : Json} {items : List Json} (hvalue : value.UniqueNames)
    (hitems : ∀ item ∈ items, item.UniqueNames) :
    isIn.apply [value, .arr items]
      = or.apply (items.map fun item => .bool (value.equals item)) := by
  show Except.ok ((value.member? (.arr items)).getD false) = .ok (List.any _ Json.truthy)
  rw [Json.member?_arr hvalue hitems, List.any_map]
  rfl

/-- `notIn` is a conjunction of inequalities. -/
theorem notIn_apply {value : Json} {items : List Json} (hvalue : value.UniqueNames)
    (hitems : ∀ item ∈ items, item.UniqueNames) :
    notIn.apply [value, .arr items]
      = and.apply (items.map fun item => .bool (!value.equals item)) := by
  show Except.ok (((value.member? (.arr items)).map (!·)).getD false) = .ok (List.all _ Json.truthy)
  rw [Json.member?_arr hvalue hitems, List.all_map, Option.map_some, Option.getD_some,
    List.not_any_eq_all_not]
  rfl

/-- Without a list both operators decide false, whatever else there is. -/
theorem membership_apply_of_not_list {operator : Operator}
    (hoperator : operator = .isIn ∨ operator = .notIn) (value : Json) {list : Json}
    (h : ∀ items, list ≠ .arr items) (others : List Json) :
    operator.apply (value :: list :: others) = .ok false := by
  have hmember := Json.member?_of_not_list h value
  rcases hoperator with rfl | rfl
  · show Except.ok ((value.member? list).getD false) = _
    rw [hmember]
    rfl
  · show Except.ok (((value.member? list).map (!·)).getD false) = _
    rw [hmember]
    rfl

end Operator

namespace Expr

variable {context : Context σ}

/-! ### Variables, constants and lists of constants -/

/-- A variable or constant has one value, and calls nothing. A variable that leads to nothing has
the value null. -/
theorem exists_settled_leaf (hcontext : context.UniqueNames) {operand : Operand}
    (hkind : operand.kind ≠ .function) (hvalue : operand.value.UniqueNames) :
    ∃ value, (Expr.leaf operand).Settled context value ∧ value.UniqueNames := by
  cases hfound : operand.kind with
  | function => exact absurd hfound hkind
  | constant =>
    refine ⟨operand.value, fun run => ?_, hvalue⟩
    rw [operandValue, Operand.resolve, hfound]
  | «variable» =>
    refine ⟨operand.resolveVariable context, fun run => ?_, ?_⟩
    · rw [operandValue, Operand.resolve, hfound]
    · -- What is not found is null.
      unfold Operand.resolveVariable
      cases hlookup : operand.name?.bind context.lookup with
      | none => exact .null
      | some value =>
        obtain ⟨name, -, hname⟩ := Option.bind_eq_some_iff.1 hlookup
        exact hcontext.lookup hname

/-- The leaf that holds a value. -/
def constant (value : Json) : Expr := .leaf (.ofConstant value)

/-- A constant has its value in every run. -/
theorem settled_constant (context : Context σ) (value : Json) :
    (constant value).Settled context value := fun _ => rfl

/-- The values of a list of constants are the constants, and the run stays as it is. -/
theorem operandValues_map_constant (context : Context σ) (values : List Json) (run : Run σ) :
    operandValues context (values.map constant) run = (.ok values, run) := by
  induction values with
  | nil => rfl
  | cons value rest ih =>
    have hvalue : (operandValue context (constant value) run).1 = .ok value := rfl
    rw [List.map_cons, operandValues_cons_of_ok hvalue, settled_constant context value run, ih]
    rfl

/-! ### Membership -/

/-- A condition that asks for a settled value in a list of constants. -/
theorem run_of_settled_list {x : Expr} {value : Json} (hx : x.Settled context value)
    (operator : Operator) (items : List Json) (start : Run σ) :
    (Expr.condition (.known operator) [x, constant (.arr items)]).run context start
      = (operator.apply [value, .arr items], start) := by
  rw [run_known, operandValues_of_settled hx, settled_constant]
  rfl

/-- A condition over the comparisons of a settled value with constants. The settled operand stands
in each comparison again, and its value is the same each time. -/
theorem run_of_settled_each {x : Expr} {value : Json} (hx : x.Settled context value)
    {comparison : Operator} {test : Json → Bool}
    (hcomparison : ∀ item, comparison.apply [value, item] = .ok (test item)) (operator : Operator)
    (items : List Json) (start : Run σ) :
    (Expr.condition (.known operator)
        (items.map fun item => .condition (.known comparison) [x, constant item])).run context start
      = (operator.apply (items.map fun item => .bool (test item)), start) := by
  -- Each comparison is a tree around a constant, with the settled operand beside it.
  have hmaps := maps_beside hx hcomparison
  have hoperands : items.map (fun item => Expr.condition (.known comparison) [x, constant item])
      = (items.map constant).map fun operand => .condition (.known comparison) [x, operand] := by
    rw [List.map_map]
    rfl
  rw [hoperands, hmaps.run_condition, operandValues_map_constant]
  rfl

/-- Where the second operand has no list as its value, both operators decide false. This includes a
second operand with a fault, which has no value at all. -/
theorem membership_of_not_list {x y : Expr} {start : Run σ}
    (h : ∀ items,
      (operandValue context y (operandValue context x start).2).1 ≠ .ok (.arr items))
    (more : List Expr) {operator : Operator} (hoperator : operator = .isIn ∨ operator = .notIn) :
    ((Expr.condition (.known operator) (x :: y :: more)).evaluate context start).1 = false := by
  -- A fault may come before the second operand, at it or behind it.
  cases hvalues : (operandValues context (x :: y :: more) start).1 with
  | error fault => exact fst_evaluate_of_fault hvalues operator
  | ok values =>
    obtain ⟨value, rest, rfl, -, hrest⟩ := operandValues_cons_eq_ok hvalues
    obtain ⟨list, others, rfl, hlist, -⟩ := operandValues_cons_eq_ok hrest
    -- The value of the second operand is the second of the values.
    have hnot : ∀ items, list ≠ .arr items := fun items heq => h items (heq ▸ hlist)
    rw [fst_evaluate_of_values hvalues,
      Operator.membership_apply_of_not_list hoperator value hnot others]
    rfl

/-- **Membership is a disjunction of equalities.** The objects in the variables and in the operands
have no name twice.

* Let the first operand be a variable or a constant, and the second one a list of constants, which
  may be empty. Then `in` is evaluated as the `or` of the comparisons of the first operand with each
  item by `eq`, and `notIn` as the `and` of the comparisons by `neq`.
* When the value of the second operand is no list, both decide false, also with functions among the
  operands and with operands behind the second one. -/
theorem evaluate_membership (context : Context σ) (start : Run σ) :
    (context.UniqueNames → ∀ (x : Operand) (items : List Json),
        x.kind ≠ .function → x.value.UniqueNames → (∀ item ∈ items, item.UniqueNames) →
        (Expr.condition (.known .isIn) [.leaf x, constant (.arr items)]).evaluate context start
            = (Expr.condition (.known .or) (items.map fun item =>
                .condition (.known .eq) [.leaf x, constant item])).evaluate context start ∧
          (Expr.condition (.known .notIn) [.leaf x, constant (.arr items)]).evaluate context start
            = (Expr.condition (.known .and) (items.map fun item =>
                .condition (.known .neq) [.leaf x, constant item])).evaluate context start) ∧
      ∀ (x y : Expr) (more : List Expr),
        (∀ items, (operandValue context y (operandValue context x start).2).1 ≠ .ok (.arr items)) →
        ((Expr.condition (.known .isIn) (x :: y :: more)).evaluate context start).1 = false ∧
          ((Expr.condition (.known .notIn) (x :: y :: more)).evaluate context start).1 = false := by
  constructor
  · intro hcontext x items hkind hvalue hitems
    obtain ⟨value, hx, hunique⟩ := exists_settled_leaf hcontext hkind hvalue
    have heq : ∀ item, Operator.eq.apply [value, item] = .ok (value.equals item) := fun _ => rfl
    have hneq : ∀ item, Operator.neq.apply [value, item] = .ok (!value.equals item) := fun _ => rfl
    constructor
    · rw [evaluate, evaluate, run_of_settled_list hx, run_of_settled_each hx heq,
        Operator.isIn_apply hunique hitems]
    · rw [evaluate, evaluate, run_of_settled_list hx, run_of_settled_each hx hneq,
        Operator.notIn_apply hunique hitems]
  · intro x y more h
    exact ⟨membership_of_not_list h more (.inl rfl), membership_of_not_list h more (.inr rfl)⟩

/-- An object inside a variable is found by a path, and it is in a list where its number is written
as a double. Beside the object that the variable holds, which is no list, it is neither in nor out. -/
theorem evaluate_membership_of_path :
    let inner := Json.obj [("k", .num (.ofNat 0))]
    let item := Json.obj [("k", .num (.float (.zero true)))]
    let device := Json.obj [("spec", inner)]
    let context := (Context.empty (σ := Unit)).setVariable "device" device
    let start := Run.start ()
    let spec := Operand.ofVariable "device.spec"
    let membership := Expr.condition (.known .isIn) [.leaf spec, constant (.arr [.str "k", item])]
    let equalities := Expr.condition (.known .or) [
      .condition (.known .eq) [.leaf spec, constant (.str "k")],
      .condition (.known .eq) [.leaf spec, constant item]]
    let inDevice := fun operator =>
      Expr.condition (.known operator) [.leaf spec, .leaf (.ofVariable "device")]
    device.UniqueNames ∧ membership.evaluate context start = equalities.evaluate context start ∧
      (membership.evaluate context start).1 = true ∧
      ((inDevice .isIn).evaluate context start).1 = false ∧
      ((inDevice .notIn).evaluate context start).1 = false := by
  intro inner item device context start spec membership equalities inDevice
  have hitem : item.UniqueNames := .single "k" (.num _)
  have hdevice : device.UniqueNames := .single "spec" (.single "k" (.num _))
  have hcontext : context.UniqueNames := Context.uniqueNames_empty.setVariable "device" hdevice
  have hitems : ∀ member ∈ [Json.str "k", item], member.UniqueNames := by
    intro member hmem
    rcases List.mem_pair.1 hmem with rfl | rfl
    · exact .str "k"
    · exact hitem
  obtain ⟨hlists, hothers⟩ := evaluate_membership context start
  obtain ⟨hin, -⟩ := hlists hcontext spec _ (by decide) (.str _) hitems
  obtain ⟨hnotIn, hnotOut⟩ := hothers (.leaf spec) (.leaf (.ofVariable "device")) [] (by
    intro items h
    cases h)
  exact ⟨hdevice, hin, rfl, hnotIn, hnotOut⟩

end Expr

end EdgeGuard
