import EdgeGuard.Proofs.Context.Lookup
import EdgeGuard.Proofs.Eval.Visits
import Mathlib.Data.List.Forall2

/-!
# `EdgeGuard.Proofs.Eval.Frame`: an evaluation sees a context through its leaves

A condition asks its context for nothing. It only hands it on to its operands, so two contexts in
which all leaves of a tree are resolved alike cannot be told apart by the tree: not by the decision,
and not by the calls, the notices and the state of the world either.

For a variable that is set this comes down to names. A leaf looks at the variable when it has its
name, or when its name is a path that starts there (`Context.LooksAt`). A name with a dot starts no
path, since the first part of a path has none.

* `lookup_setVariable_of_not_looksAt`: a variable that a name does not look at may be set.
* `evaluate_of_resolvesAlike`: trees whose leaves are resolved alike are evaluated alike.
* `resolvesAlike_setVariable`: they are, when the tree does not refer to the variable.
-/

set_option autoImplicit false

namespace EdgeGuard

variable {σ : Type}

/-! ### Names -/

namespace Context

/-- A lookup of a name may look at a variable: the name is that of the variable, or it is a path
that starts there. A path that starts there may find a value below the variable, so setting the
variable may change what it leads to. -/
def LooksAt (query name : String) : Prop :=
  query = name ∨ ('.' ∉ name.toList ∧ ∃ rest, query = name ++ "." ++ rest)

/-- A path starts at no variable that it does not look at. The name of the variable would have no
dot then, and the path would be one that starts there. -/
theorem first_ne_of_not_looksAt {query name first : String} {others : List String}
    (h : ¬ LooksAt query name) (dotted : '.' ∈ query.toList) (parts : PartsOf query first others) :
    first ≠ name := by
  rintro rfl
  have hplain := parts.undotted first List.mem_cons_self
  cases others with
  | nil =>
    -- A name that is its own first part has no dot.
    have hquery : first = query := parts.joined
    exact hplain (hquery ▸ dotted)
  | cons next others =>
    refine h (.inr ⟨hplain, ".".intercalate (next :: others), ?_⟩)
    rw [← parts.joined]
    exact String.intercalate_cons_cons

/-- A variable that a name does not look at may be set. A lookup asks for the name itself and for
the first part of a path, and neither is the variable. -/
theorem lookup_setVariable_of_not_looksAt (context : Context σ) {name query : String}
    (value : Json) (h : ¬ LooksAt query name) :
    (context.setVariable name value).lookup query = context.lookup query := by
  have hquery : query ≠ name := fun heq => h (.inl heq)
  -- The name itself is bound as before. Whether it is a path does not depend on the context.
  have hsame : (context.setVariable name value).values.get? query = context.values.get? query := by
    rw [get?_setVariable, if_neg hquery]
  cases hfound : context.values.get? query with
  | some found => rw [lookup_of_bound hfound, lookup_of_bound (hsame.trans hfound)]
  | none =>
    by_cases dotted : '.' ∈ query.toList
    · obtain ⟨first, others, parts⟩ := exists_partsOf query
      rw [lookup_of_parts hfound dotted parts, lookup_of_parts (hsame.trans hfound) dotted parts,
        get?_setVariable, if_neg (first_ne_of_not_looksAt h dotted parts)]
    · rw [lookup_of_undotted hfound dotted, lookup_of_undotted (hsame.trans hfound) dotted]

end Context

/-! ### Leaves -/

namespace Operand

/-- A leaf looks at a variable: it stands for a variable, and its name looks there. -/
def LooksAt (operand : Operand) (name : String) : Prop :=
  operand.kind = .variable ∧ ∃ query, operand.name? = some query ∧ Context.LooksAt query name

/-- A variable that a leaf does not look at may be set. Functions and constants are not looked up
among the variables. -/
theorem resolve_setVariable_of_not_looksAt (context : Context σ) {name : String} (value : Json)
    {operand : Operand} (h : ¬ operand.LooksAt name) :
    operand.resolve (context.setVariable name value) = operand.resolve context := by
  funext run
  cases hkind : operand.kind with
  | constant => simp only [resolve, hkind]
  | function =>
    -- The functions are the same, so the same is called.
    simp only [resolve, hkind]
    rfl
  | «variable» =>
    have hfound : operand.name?.bind (context.setVariable name value).lookup
        = operand.name?.bind context.lookup := by
      cases hname : operand.name? with
      | none => rfl
      | some query =>
        have hquery : ¬ Context.LooksAt query name := fun hlooks => h ⟨hkind, query, hname, hlooks⟩
        exact context.lookup_setVariable_of_not_looksAt value hquery
    simp only [resolve, hkind, resolveVariable, hfound]

end Operand

/-! ### Trees -/

namespace Expr

/-- Both contexts resolve every leaf of a tree to the same value, with the same calls and
notices. -/
def ResolvesAlike (context other : Context σ) (expr : Expr) : Prop :=
  ∀ operand : Operand, (Expr.leaf operand).Within expr →
    operand.resolve context = operand.resolve other

variable {context other : Context σ}

/-- Lists of operands with the same values, calls and notices one by one have the same ones
together. -/
theorem operandValues_of_operandValue {operands others : List Expr}
    (h : List.Forall₂ (fun a b => operandValue context a = operandValue other b) operands others) :
    operandValues context operands = operandValues other others := by
  induction h with
  | nil => rfl
  | cons hfirst _ ih =>
    funext run
    rw [operandValues, operandValues, hfirst, ih]

/-- A condition hands its context on to its operands, and does no more with it. -/
theorem run_condition_of_operandValue {operands others : List Expr}
    (h : List.Forall₂ (fun a b => operandValue context a = operandValue other b) operands others)
    (tag : OperatorTag) :
    (Expr.condition tag operands).run context = (Expr.condition tag others).run other := by
  funext run
  cases tag with
  | unknown text => rfl
  | known operator => rw [run_known, run_known, operandValues_of_operandValue h]

/-- An operand whose leaves are resolved alike has the same value, with the same calls and notices.
It is an equality for all runs, so calls, notices and the world are included. -/
theorem operandValue_of_resolvesAlike {expr : Expr} (h : expr.ResolvesAlike context other) :
    operandValue context expr = operandValue other expr := by
  induction expr with
  | condition tag operands ih =>
    have hoperands : ∀ operand ∈ operands,
        operandValue context operand = operandValue other operand := fun operand hmem =>
      ih operand hmem fun leaf hwithin => h leaf (.operand hmem hwithin)
    funext run
    rw [operandValue_condition, operandValue_condition,
      run_condition_of_operandValue (List.forall₂_same.2 hoperands)]
  | leaf operand =>
    funext run
    rw [operandValue, operandValue, h operand .root]
  | malformed raw => rfl

/-- A tree whose leaves are resolved alike is evaluated to the same decision, with the same calls
and notices. -/
theorem evaluate_of_resolvesAlike {expr : Expr} (h : expr.ResolvesAlike context other) :
    expr.evaluate context = expr.evaluate other := by
  -- A root is not an operand, so the three kinds of nodes are gone through once more.
  have hrun : expr.run context = expr.run other := by
    cases expr with
    | condition tag operands =>
      refine run_condition_of_operandValue (List.forall₂_same.2 fun operand hmem => ?_) tag
      exact operandValue_of_resolvesAlike fun leaf hwithin => h leaf (.operand hmem hwithin)
    | leaf operand =>
      funext run
      rw [Expr.run, Expr.run, h operand .root]
    | malformed raw => rfl
  funext run
  rw [evaluate, evaluate, hrun]

/-- A tree refers to a variable: one of its leaves looks at it. -/
def Refers (expr : Expr) (name : String) : Prop :=
  ∃ operand : Operand, (Expr.leaf operand).Within expr ∧ operand.LooksAt name

/-- A condition refers to a variable when one of its operands does. -/
theorem refers_condition_iff (tag : OperatorTag) (operands : List Expr) (name : String) :
    (Expr.condition tag operands).Refers name ↔ ∃ operand ∈ operands, operand.Refers name := by
  constructor
  · rintro ⟨leaf, hwithin, hlooks⟩
    cases hwithin with
    | operand hmem h => exact ⟨_, hmem, leaf, h, hlooks⟩
  · rintro ⟨operand, hmem, leaf, h, hlooks⟩
    exact ⟨leaf, .operand hmem h, hlooks⟩

/-- A leaf refers to a variable when it looks at it. -/
theorem refers_leaf_iff (operand : Operand) (name : String) :
    (Expr.leaf operand).Refers name ↔ operand.LooksAt name := by
  constructor
  · rintro ⟨leaf, hwithin, hlooks⟩
    cases hwithin
    exact hlooks
  · exact fun hlooks => ⟨operand, .root, hlooks⟩

/-- A variable that a tree does not refer to may be set. -/
theorem resolvesAlike_setVariable (context : Context σ) {name : String} (value : Json) {expr : Expr}
    (h : ¬ expr.Refers name) : expr.ResolvesAlike (context.setVariable name value) context := by
  intro operand hwithin
  refine operand.resolve_setVariable_of_not_looksAt context value fun hlooks => ?_
  exact h ⟨operand, hwithin, hlooks⟩

end Expr

end EdgeGuard
