import EdgeGuard.Proofs.Eval.Compose
import EdgeGuard.Proofs.Expr.Shape

/-!
# `EdgeGuard.Proofs.Eval.Annotations`: what an editor notes on a node does not count

An editor may keep notes of its own in the object of a node, and the declared type of a leaf is one
of them. `Json.Reannotated` relates two stored values that differ in such notes only, on the root
and on any operands below it. What stands inside a value or under an operator is no note.

`Expr.unannotated` forgets what a tree may keep of the notes: the declared types, and malformed
nodes, which are kept whole. It is the common ground of both sides:

* `unannotated_ofJson_eq`: stored values with other notes are read as trees that are the same
  without their notes.
* `check_mapNodes`, `fst_run_unannotated` and `visitRoot_mapNodes`: neither the check nor the
  decision nor the calls depend on what is forgotten.
* `decision_eq_of_reannotated`: so stored values with other notes decide the same.
-/

set_option autoImplicit false

namespace EdgeGuard

variable {σ : Type}

/-- The keys of the object of a node that count. All others are notes, the data type included. -/
def nodeKeys : List String := ["operator", "operands", "type", "value"]

/-- The second stored value has other notes than the first one on the objects of some of its nodes.
An object is one of a node when it is the root, or when it stands in the list of operands of such an
object that has an operator. -/
inductive Json.Reannotated : Json → Json → Prop
  /-- A value without a change. -/
  | refl (v : Json) : Reannotated v v
  /-- An object with other notes. -/
  | node {fields fields' : List (String × Json)}
      (keys : ∀ key ∈ nodeKeys, Bindings.get? fields key = Bindings.get? fields' key) :
      Reannotated (.obj fields) (.obj fields')
  /-- An object with an operator, with other notes on itself and on its operands. -/
  | operands {fields fields' : List (String × Json)} {tag : Json} {items items' : List Json}
      (operator : Bindings.get? fields "operator" = some tag)
      (operands : Bindings.get? fields "operands" = some (.arr items))
      (operands' : Bindings.get? fields' "operands" = some (.arr items'))
      (keys : ∀ key ∈ nodeKeys, key ≠ "operands" →
        Bindings.get? fields key = Bindings.get? fields' key)
      (each : List.Forall₂ Reannotated items items') : Reannotated (.obj fields) (.obj fields')

/-- The leaf without its declared type. -/
def Operand.untyped (operand : Operand) : Operand := { operand with dataType := none }

namespace Expr

/-- The tree without what is left of the notes on its nodes: no leaf declares a type, and it is not
kept what a malformed node was. -/
def unannotated (expr : Expr) : Expr := expr.mapNodes Operand.untyped fun _ => .null

/-! ### Reading -/

/-- An object with other notes is read as the same node, up to the notes. -/
theorem unannotated_ofJson_node {fields fields' : List (String × Json)}
    (keys : ∀ key ∈ nodeKeys, Bindings.get? fields key = Bindings.get? fields' key) :
    (ofJson (.obj fields)).unannotated = (ofJson (.obj fields')).unannotated := by
  have hoperator := keys "operator" (by decide)
  have hoperands : operandsIn fields = operandsIn fields' := by
    rw [operandsIn_eq, operandsIn_eq, keys "operands" (by decide)]
  have hkind : Operand.kindIn? fields = Operand.kindIn? fields' := by
    rw [Operand.kindIn?, Operand.kindIn?, keys "type" (by decide)]
  have hleaf : ∀ kind, (Operand.ofFields kind fields).untyped
      = (Operand.ofFields kind fields').untyped := by
    intro kind
    simp only [Operand.ofFields, Operand.untyped, keys "value" (by decide)]
  rw [ofJson, ofJson, ← hoperator, ← hoperands, ← hkind]
  cases Bindings.get? fields "operator" with
  | some tag =>
    -- Without a list of operands the object is kept whole, and forgotten here.
    cases operandsIn fields <;> rfl
  | none =>
    cases Operand.kindIn? fields with
    | some kind => exact congrArg Expr.leaf (hleaf kind)
    | none => rfl

/-- Stored values with other notes are read as the same tree, up to the notes. -/
theorem unannotated_ofJson_eq {v w : Json} (h : v.Reannotated w) :
    (ofJson v).unannotated = (ofJson w).unannotated := by
  induction v using operandInduction generalizing w with
  | step v ih =>
    cases h with
    | refl => rfl
    | node keys => exact unannotated_ofJson_node keys
    | @operands fields fields' tag items items' operator operands operands' keys each =>
      have hoperator := keys "operator" (by decide) (by decide)
      have hitem := (List.forall₂_and_left items items').2
        ⟨fun item hmem item' (hnotes : item.Reannotated item') =>
          ih fields items item rfl operands hmem hnotes, each⟩
      have hitems : (items.map ofJson).map unannotated = (items'.map ofJson).map unannotated := by
        rw [List.map_map, List.map_map, ← List.forall₂_eq_eq_eq, List.forall₂_map_left_iff,
          List.forall₂_map_right_iff]
        exact hitem.imp fun item item' ⟨hread, hnotes⟩ => hread item' hnotes
      -- With its operands, the object is a condition on both sides, with one operator.
      rw [ofJson_of_operands operator operands,
        ofJson_of_operands (hoperator.symm.trans operator) operands', unannotated, unannotated,
        mapNodes_condition, mapNodes_condition]
      exact congrArg _ hitems

/-! ### Deciding -/

/-- Operands are visited as those that are put in their places, when each one is. -/
theorem visitAll_map {replace : Expr → Expr} {operands : List Expr}
    (h : ∀ operand ∈ operands, (replace operand).visit = operand.visit) :
    visitAll (operands.map replace) = visitAll operands := by
  induction operands with
  | nil => rfl
  | cons operand rest ih =>
    rw [List.map_cons, visitAll, visitAll, h operand List.mem_cons_self,
      ih fun operand hmem => h operand (List.mem_cons_of_mem _ hmem)]

/-- What is reached in a tree does not depend on its leaves, if they name the same functions. -/
theorem visit_mapNodes {leaf : Operand → Operand}
    (hleaf : ∀ operand, (leaf operand).functionNames = operand.functionNames)
    (malformed : Json → Json) (expr : Expr) : (expr.mapNodes leaf malformed).visit = expr.visit := by
  induction expr with
  | condition tag operands ih =>
    rw [mapNodes_condition]
    cases tag with
    | unknown text => rfl
    | known operator => rw [visit, visit, visitAll_map ih, List.length_map]
  | leaf operand => rw [mapNodes, visit, visit, hleaf]
  | malformed raw => rfl

/-- How far the evaluation of a tree gets does not depend on its leaves either, if they name the
same functions. -/
theorem visitRoot_mapNodes {leaf : Operand → Operand}
    (hleaf : ∀ operand, (leaf operand).functionNames = operand.functionNames)
    (malformed : Json → Json) (expr : Expr) :
    (expr.mapNodes leaf malformed).visitRoot = expr.visitRoot := by
  cases expr with
  | condition tag operands => exact visit_mapNodes hleaf malformed (.condition tag operands)
  | leaf operand => exact visit_mapNodes hleaf malformed (.leaf operand)
  | malformed raw => rfl

/-- A leaf gives the same without its declared type, and leaves the world in the same state. -/
theorem giveAlike_untyped (context : Context σ) (operand : Operand) :
    GiveAlike Eq context context (.leaf operand) (.leaf operand.untyped) := by
  intro run run' hworld
  constructor
  · show Except.ok (operand.resolve context run).1.normal
      = .ok (operand.resolve context run').1.normal
    rw [operand.resolve_congr context hworld]
  · show (operandValue context (.leaf operand) run).2.world
      = (operandValue context (.leaf operand) run').2.world
    rw [(visit_describes_operandValue context _ run).world,
      (visit_describes_operandValue context _ run').world, hworld]

/-- A tree decides the same without the notes on its nodes. -/
theorem fst_run_unannotated (context : Context σ) (expr : Expr) (start : Run σ) :
    (expr.unannotated.run context start).1 = (expr.run context start).1 :=
  fst_run_mapNodes (giveAlike_untyped context) _ expr rfl

/-- A tree calls the same without the notes on its nodes. -/
theorem visitRoot_unannotated (expr : Expr) : expr.unannotated.visitRoot = expr.visitRoot := by
  have hleaf : ∀ operand : Operand, operand.untyped.functionNames = operand.functionNames :=
    fun _ => rfl
  exact visitRoot_mapNodes hleaf _ expr

/-- **What an editor notes on a node does not count.** Let two stored values differ only in the data
types and in the keys of their nodes other than the operator, the operands, the type and the value.
Then both pass the check or have the same problem. In every context both decide the same, call the
same functions in the same order and leave the world in the same state. -/
theorem decision_eq_of_reannotated {v w : Json} (h : v.Reannotated w) :
    (ofJson v).check = (ofJson w).check ∧
      ∀ {σ : Type} (context : Context σ) (start : Run σ),
        ((ofJson v).evaluate context start).1 = ((ofJson w).evaluate context start).1 ∧
        ((ofJson v).evaluate context start).2.calls
          = ((ofJson w).evaluate context start).2.calls ∧
        ((ofJson v).evaluate context start).2.world
          = ((ofJson w).evaluate context start).2.world := by
  -- The two trees are one tree without their notes, and each decides as it does without them.
  have hread := unannotated_ofJson_eq h
  constructor
  · have hcheck : (ofJson v).unannotated.check = (ofJson w).unannotated.check := by rw [hread]
    rwa [unannotated, unannotated, check_mapNodes, check_mapNodes] at hcheck
  · intro σ context start
    have hvisit : (ofJson v).visitRoot = (ofJson w).visitRoot := by
      rw [← visitRoot_unannotated, hread, visitRoot_unannotated]
    obtain ⟨hcalls, hworld⟩ := evaluate_calls_world context (ofJson v) start
    obtain ⟨hcalls', hworld'⟩ := evaluate_calls_world context (ofJson w) start
    refine ⟨?_, ?_, ?_⟩
    · rw [fst_evaluate, fst_evaluate, ← fst_run_unannotated, hread, fst_run_unannotated]
    · rw [hcalls, hcalls', hvisit]
    · rw [hworld, hworld', hvisit]

/-- A function and an object that is no node, with a label at the root, a data type on the function
and a note on the object. The object is the problem of both, and both call the function. -/
theorem decision_eq_of_reannotated_of_label :
    let call := Json.obj [("type", .str "function"), ("value", .str "f")]
    let call' := Json.obj
      [("dataType", .str "number"), ("type", .str "function"), ("value", .str "f")]
    let odd := Json.obj [("type", .str "register")]
    let odd' := Json.obj [("note", .null), ("type", .str "register")]
    let tree := Json.obj [("operands", .arr [call, odd]), ("operator", .str "or")]
    let tree' := Json.obj
      [("label", .bool true), ("operands", .arr [call', odd']), ("operator", .str "or")]
    let count : Callable Nat := fun calls => (.value (.str "on"), calls + 1)
    let context := Context.empty.setFunction "f" count
    tree.Reannotated tree' ∧
      (ofJson tree').check = .error (.malformedOperand .or 1) ∧
      ((ofJson tree').evaluate context (Run.start 0)).1 = true ∧
      ((ofJson tree').evaluate context (Run.start 0)).2.calls = ["f"] := by
  intro call call' odd odd' tree tree' count context
  have hcall : call.Reannotated call' := .node (by decide)
  have hodd : odd.Reannotated odd' := .node (by decide)
  have htree : tree.Reannotated tree' :=
    .operands rfl rfl rfl (by decide) (.cons hcall (.cons hodd .nil))
  obtain ⟨hcheck, hdecision⟩ := decision_eq_of_reannotated htree
  obtain ⟨hresult, hcalls, -⟩ := hdecision context (Run.start 0)
  exact ⟨htree, hcheck.symm, hresult.symm, hcalls.symm⟩

end Expr

end EdgeGuard
