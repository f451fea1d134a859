import EdgeGuard.Expr.Decode
import EdgeGuard.Proofs.Expr.Nodes
import EdgeGuard.Proofs.Json.Order

/-!
# `EdgeGuard.Proofs.Expr.Shape`: how a stored value is classified

`Expr.ofJson` takes a stored value for a condition, a leaf or a malformed node.
`ofJson_cases` says which, with all that decides it, so that no other proof unfolds the reader.
The operands of a condition are the items of a list inside the value; `depth_lt_of_operands`
makes them smaller, and proofs about reading are by induction on the depth of the value.
-/

set_option autoImplicit false

namespace EdgeGuard.Expr

/-- An object with an operator and a list of operands is read as a condition. -/
theorem ofJson_of_operands {fields : List (String × Json)} {tag : Json} {items : List Json}
    (htag : Bindings.get? fields "operator" = some tag)
    (hitems : Bindings.get? fields "operands" = some (.arr items)) :
    ofJson (.obj fields) = .condition (.ofJson tag) (items.map ofJson) := by
  have hoperands : operandsIn fields = some (items.map ofJson) := by
    rw [operandsIn_eq, hitems, ← ofItems_eq_map]
    rfl
  rw [ofJson, htag]
  simp only [hoperands]

/-- An object without an operator is read as a leaf of its kind. -/
theorem ofJson_of_kind {fields : List (String × Json)} {kind : OperandKind}
    (hnone : Bindings.get? fields "operator" = none)
    (hkind : Operand.kindIn? fields = some kind) :
    ofJson (.obj fields) = .leaf (.ofFields kind fields) := by
  rw [ofJson, hnone]
  simp only [hkind]

/-- A stored value is read in one of three ways: as a condition, as a leaf, or kept as it is. A
condition has an operator and a list of operands, and a leaf has no operator and a known type. What
is neither is kept, so that it can be stored again and reported. -/
theorem ofJson_cases (v : Json) :
    (∃ fields tag items, v = .obj fields ∧ Bindings.get? fields "operator" = some tag ∧
      Bindings.get? fields "operands" = some (.arr items) ∧
      ofJson v = .condition (.ofJson tag) (items.map ofJson)) ∨
    (∃ fields kind, v = .obj fields ∧ Bindings.get? fields "operator" = none ∧
      Operand.kindIn? fields = some kind ∧ ofJson v = .leaf (.ofFields kind fields)) ∨
    ofJson v = .malformed v := by
  cases v with
  | obj fields =>
    cases htag : Bindings.get? fields "operator" with
    | some tag =>
      cases hoperands : operandsIn fields with
      | none =>
        refine .inr (.inr ?_)
        rw [ofJson, htag]
        simp only [hoperands]
      | some operands =>
        -- The operands are read only when there is a list of them.
        have hsome := hoperands
        rw [operandsIn_eq] at hsome
        obtain ⟨value, hvalue, hlist⟩ := Option.bind_eq_some_iff.1 hsome
        cases value with
        | arr items =>
          exact .inl ⟨fields, tag, items, rfl, htag, hvalue, ofJson_of_operands htag hvalue⟩
        | _ => exact absurd hlist (by simp [operandsOf])
    | none =>
      cases hkind : Operand.kindIn? fields with
      | some kind => exact .inr (.inl ⟨fields, kind, rfl, htag, hkind, ofJson_of_kind htag hkind⟩)
      | none =>
        refine .inr (.inr ?_)
        rw [ofJson, htag]
        simp only [hkind]
  | _ => exact .inr (.inr rfl)

/-- A malformed node holds the value that was read. -/
theorem eq_of_ofJson_malformed {v raw : Json} (h : ofJson v = .malformed raw) : raw = v := by
  rcases ofJson_cases v with ⟨_, _, _, _, _, _, hcondition⟩ | ⟨_, _, _, _, _, hleaf⟩ | hmalformed
  · exact absurd (h.symm.trans hcondition) (by simp)
  · exact absurd (h.symm.trans hleaf) (by simp)
  · exact Expr.malformed.inj (h.symm.trans hmalformed)

/-- The operands of a condition nest less deep than the object in which they stand. This makes an
induction over operands well founded. -/
theorem depth_lt_of_operands {fields : List (String × Json)} {items : List Json} {item : Json}
    (hitems : Bindings.get? fields "operands" = some (.arr items)) (hitem : item ∈ items) :
    item.depth < (Json.obj fields).depth := by
  have hlist := Json.depth_le_depthFields (Bindings.mem_of_get? hitems)
  have hmem := Json.depth_le_depthItems hitem
  simp only [Json.depth] at hlist ⊢
  omega

/-- What holds of a stored value when it holds of the operands in it holds of every value. -/
theorem operandInduction {motive : Json → Prop}
    (step : ∀ v, (∀ fields items item, v = .obj fields →
      Bindings.get? fields "operands" = some (.arr items) → item ∈ items → motive item) →
      motive v) (v : Json) : motive v := by
  -- The operands are no parts of the value that a structural induction would give, as a list stands
  -- between, so the depth is what gets smaller.
  induction h : v.depth using Nat.strongRecOn generalizing v with
  | _ depth ih =>
    subst h
    refine step v fun fields items item hv hitems hitem => ?_
    subst hv
    exact ih item.depth (depth_lt_of_operands hitems hitem) item rfl

end EdgeGuard.Expr
