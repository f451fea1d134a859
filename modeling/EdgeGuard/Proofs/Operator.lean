import EdgeGuard.Operator

/-!
# `EdgeGuard.Proofs.Operator`: the tags of a stored tree

The sixteen tags are listed by the number of operands that a condition with the tag takes. The
lists are written out, so that what is stated with them can be read without the operators:

* `mem_wireTags_iff`: these are the tags of the operators.
* `accepts_iff_takesOperands`: an operator accepts the numbers of operands that its tag takes.
-/

set_option autoImplicit false

namespace EdgeGuard

/-- The tags that take one operand. -/
def unaryTags : List String := ["not", "isNull", "isNotNull"]

/-- The tags that take any number of operands but none. -/
def variadicTags : List String := ["and", "or"]

/-- The tags that take two operands. -/
def binaryTags : List String :=
  ["eq", "neq", "gt", "lt", "gte", "lte", "contains", "startsWith", "endsWith", "in", "notIn"]

/-- All tags. -/
def wireTags : List String := unaryTags ++ variadicTags ++ binaryTags

/-- A condition with this tag has this number of operands. -/
def TakesOperands (tag : String) (count : Nat) : Prop :=
  (tag ∈ unaryTags ∧ count = 1) ∨ (tag ∈ variadicTags ∧ 1 ≤ count) ∨
    (tag ∈ binaryTags ∧ count = 2)

instance (tag : String) (count : Nat) : Decidable (TakesOperands tag count) :=
  inferInstanceAs (Decidable (_ ∨ _ ∨ _))

/-- A condition with this tag has fewer operands than are looked at in any case. -/
def LacksOperands (tag : String) (count : Nat) : Prop :=
  (tag ∈ unaryTags ∧ count < 1) ∨ (tag ∈ binaryTags ∧ count < 2)

/-- A condition with this tag has operands that are not looked at when it is put into words. -/
def HasSurplus (tag : String) (count : Nat) : Prop :=
  (tag ∈ unaryTags ∧ 1 < count) ∨ (tag ∈ binaryTags ∧ 2 < count)

namespace Operator

/-- The tag of every operator is in one of the lists. -/
theorem tag_mem_wireTags (operator : Operator) : operator.tag ∈ wireTags := by
  cases operator <;> decide

/-- The tags are those that an operator has. -/
theorem mem_wireTags_iff (tag : String) :
    tag ∈ wireTags ↔ ∃ operator, ofTag? tag = some operator := by
  have hall : ∀ tag ∈ wireTags, (ofTag? tag).isSome := by decide
  constructor
  · exact fun h => Option.isSome_iff_exists.1 (hall tag h)
  · rintro ⟨operator, h⟩
    rw [← tag_of_ofTag? h]
    exact tag_mem_wireTags operator

/-- A text that takes some number of operands is the tag of an operator. -/
theorem exists_tag_of_takesOperands {tag : String} {count : Nat} (h : TakesOperands tag count) :
    ∃ operator : Operator, operator.tag = tag := by
  have hmem : tag ∈ wireTags := by
    rw [wireTags, List.mem_append, List.mem_append]
    rcases h with ⟨h, -⟩ | ⟨h, -⟩ | ⟨h, -⟩
    · exact .inl (.inl h)
    · exact .inl (.inr h)
    · exact .inr h
  obtain ⟨operator, hfound⟩ := (mem_wireTags_iff tag).1 hmem
  exact ⟨operator, tag_of_ofTag? hfound⟩

/-- A text that is no tag finds no operator. -/
theorem ofTag?_eq_none {tag : String} (h : tag ∉ wireTags) : ofTag? tag = none := by
  cases hfound : ofTag? tag with
  | none => rfl
  | some operator => exact absurd ((mem_wireTags_iff tag).2 ⟨operator, hfound⟩) h

/-- An operator accepts the numbers of operands that its tag takes. -/
theorem accepts_iff_takesOperands (operator : Operator) (count : Nat) :
    operator.arity.accepts count = true ↔ TakesOperands operator.tag count := by
  cases operator <;>
    simp [arity, operandCount, Arity.accepts, TakesOperands, tag, unaryTags, variadicTags,
      binaryTags]

end Operator

end EdgeGuard
