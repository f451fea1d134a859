import EdgeGuard.Expr.Basic

/-!
# `EdgeGuard.Proofs.Expr.Nodes`: properties of every node of a tree

`Expr.induction` is the induction on trees: a condition may use what holds of its operands.
`Expr.Everywhere p` says that `p` holds of every node, the root and all operands at any depth.
Many classes of trees are of this form, and a class of that form is closed under taking operands.
`Expr.Within` is the order of trees behind it: a node stands in a tree.

* `Expr.everywhere_iff_within`: what holds everywhere in a tree holds of all nodes in it.
* `Expr.Ordered`: every value in the tree has the fields of its objects in order. The trees of a
  running program are all of this kind, since an object there keeps its names sorted.
-/

set_option autoImplicit false

namespace EdgeGuard.Expr

/-- What holds of a condition when it holds of its operands, and of every leaf and malformed node,
holds of every tree. -/
@[elab_as_elim, induction_eliminator]
theorem induction {motive : Expr → Prop}
    (condition : ∀ tag operands, (∀ operand ∈ operands, motive operand) →
      motive (.condition tag operands))
    (leaf : ∀ operand, motive (.leaf operand)) (malformed : ∀ raw, motive (.malformed raw))
    (expr : Expr) : motive expr :=
  @Expr.rec motive (fun operands => ∀ operand ∈ operands, motive operand)
    condition leaf malformed
    (fun _ h => absurd h List.not_mem_nil)
    (fun _ _ hhead htail => List.forall_mem_cons.2 ⟨hhead, htail⟩) expr

/-- A property holds of every node of a tree. -/
inductive Everywhere (p : Expr → Prop) : Expr → Prop
  | condition {tag : OperatorTag} {operands : List Expr} (here : p (.condition tag operands))
      (below : ∀ operand ∈ operands, Everywhere p operand) :
      Everywhere p (.condition tag operands)
  | leaf {operand : Operand} (here : p (.leaf operand)) : Everywhere p (.leaf operand)
  | malformed {raw : Json} (here : p (.malformed raw)) : Everywhere p (.malformed raw)

/-- A property holds everywhere in a condition when it holds of the condition and everywhere in its
operands. -/
theorem everywhere_condition_iff {p : Expr → Prop} {tag : OperatorTag} {operands : List Expr} :
    Everywhere p (.condition tag operands)
      ↔ p (.condition tag operands) ∧ ∀ operand ∈ operands, Everywhere p operand := by
  constructor
  · intro h
    cases h with
    | condition here below => exact ⟨here, below⟩
  · rintro ⟨here, below⟩
    exact .condition here below

/-- A leaf has no node below it. -/
theorem everywhere_leaf_iff {p : Expr → Prop} {operand : Operand} :
    Everywhere p (.leaf operand) ↔ p (.leaf operand) := by
  constructor
  · intro h
    cases h with
    | leaf here => exact here
  · exact .leaf

/-- Neither has a malformed node. -/
theorem everywhere_malformed_iff {p : Expr → Prop} {raw : Json} :
    Everywhere p (.malformed raw) ↔ p (.malformed raw) := by
  constructor
  · intro h
    cases h with
    | malformed here => exact here
  · exact .malformed

/-- A stronger property holds of fewer trees. -/
theorem Everywhere.mono {p q : Expr → Prop} (hpq : ∀ node, p node → q node) {expr : Expr}
    (h : expr.Everywhere p) : expr.Everywhere q := by
  induction h with
  | condition here _ ih => exact .condition (hpq _ here) ih
  | leaf here => exact .leaf (hpq _ here)
  | malformed here => exact .malformed (hpq _ here)

/-- A node stands in a tree: it is the root, or it is reached from the root through lists of
operands. -/
inductive Within (node : Expr) : Expr → Prop
  | root : Within node node
  | operand {operand : Expr} {tag : OperatorTag} {operands : List Expr}
      (hmem : operand ∈ operands) (h : Within node operand) :
      Within node (.condition tag operands)

/-- A property of every node is a property of the nodes that stand in the tree. -/
theorem everywhere_iff_within {p : Expr → Prop} {expr : Expr} :
    expr.Everywhere p ↔ ∀ node : Expr, node.Within expr → p node := by
  constructor
  · intro h node hwithin
    induction hwithin with
    | root =>
      cases h with
      | condition here => exact here
      | leaf here => exact here
      | malformed here => exact here
    | operand hmem _ ih => exact ih ((everywhere_condition_iff.1 h).2 _ hmem)
  · intro h
    induction expr with
    | condition tag operands ih =>
      refine .condition (h _ .root) fun operand hmem => ?_
      exact ih operand hmem fun node hwithin => h node (.operand hmem hwithin)
    | leaf operand => exact .leaf (h _ .root)
    | malformed raw => exact .malformed (h _ .root)

/-- The value that a node holds itself has the fields of its objects in order. -/
def HoldsOrdered : Expr → Prop
  | .condition .. => True
  | .leaf operand => operand.value.Ordered
  | .malformed raw => raw.Ordered

/-- Every value in a tree has the fields of its objects in order. -/
def Ordered (expr : Expr) : Prop := expr.Everywhere HoldsOrdered

end EdgeGuard.Expr
