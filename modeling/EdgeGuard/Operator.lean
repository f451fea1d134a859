/-!
# `EdgeGuard.Operator`: the operators of a condition

Sixteen operators, each with the tag that stands for it in a stored tree, a symbol for editors,
a category and the number of operands it takes.

* `Operator.ofTag?_tag` says that every operator is found by its tag.
* `Operator.tag_of_ofTag?` says that only its tag finds it.
-/

set_option autoImplicit false

namespace EdgeGuard

/-- An operator of a condition. -/
inductive Operator where
  | eq
  | neq
  | gt
  | lt
  | gte
  | lte
  | and
  | or
  | not
  | contains
  | startsWith
  | endsWith
  | isIn
  | notIn
  | isNull
  | isNotNull
deriving DecidableEq, Repr

/-- A family of operators. -/
inductive Category where
  | comparison
  | logical
  | string
  | collection
  | null
deriving DecidableEq, Repr

/-- How many operands an operator takes. -/
inductive Arity where
  | exactly (count : Nat)
  | atLeast (count : Nat)
deriving DecidableEq, Repr

namespace Arity

/-- Whether a number of operands is taken. -/
def accepts : Arity → Nat → Bool
  | .exactly n, count => count == n
  | .atLeast n, count => n ≤ count

/-- The words for an arity. -/
def text : Arity → String
  | .exactly n => "exactly " ++ toString n
  | .atLeast n => "at least " ++ toString n

end Arity

namespace Category

/-- The tag of a category. -/
def tag : Category → String
  | .comparison => "comparison"
  | .logical => "logical"
  | .string => "string"
  | .collection => "collection"
  | .null => "null"

/-- The categories in their usual order. -/
def all : List Category := [.comparison, .logical, .string, .collection, .null]

/-- The categories under their tags. -/
def tags : List (String × Category) := all.map fun category => (category.tag, category)

end Category

namespace Operator

/-- The operators in their usual order. -/
def all : List Operator :=
  [.eq, .neq, .gt, .lt, .gte, .lte, .and, .or, .not, .contains, .startsWith, .endsWith, .isIn,
    .notIn, .isNull, .isNotNull]

/-- The tag that stands for an operator in a stored tree. -/
def tag : Operator → String
  | .eq => "eq"
  | .neq => "neq"
  | .gt => "gt"
  | .lt => "lt"
  | .gte => "gte"
  | .lte => "lte"
  | .and => "and"
  | .or => "or"
  | .not => "not"
  | .contains => "contains"
  | .startsWith => "startsWith"
  | .endsWith => "endsWith"
  | .isIn => "in"
  | .notIn => "notIn"
  | .isNull => "isNull"
  | .isNotNull => "isNotNull"

/-- The operators under their tags. -/
def tags : List (String × Operator) := all.map fun operator => (operator.tag, operator)

/-- The operator with a tag. -/
def ofTag? (tag : String) : Option Operator := all.find? fun operator => operator.tag == tag

/-- The symbol that an editor shows. -/
def symbol : Operator → String
  | .eq => "="
  | .neq => "≠"
  | .gt => ">"
  | .lt => "<"
  | .gte => "≥"
  | .lte => "≤"
  | .and => "AND"
  | .or => "OR"
  | .not => "NOT"
  | .contains => "contains"
  | .startsWith => "starts with"
  | .endsWith => "ends with"
  | .isIn => "in"
  | .notIn => "not in"
  | .isNull => "is null"
  | .isNotNull => "is not null"

/-- The family of an operator. -/
def category : Operator → Category
  | .eq | .neq | .gt | .lt | .gte | .lte => .comparison
  | .and | .or | .not => .logical
  | .contains | .startsWith | .endsWith => .string
  | .isIn | .notIn => .collection
  | .isNull | .isNotNull => .null

/-- The number of operands that an editor gives to a new condition. -/
def operandCount : Operator → Nat
  | .not | .isNull | .isNotNull => 1
  | _ => 2

/-- The number of operands that a valid condition has: `and` and `or` take any number but
zero. -/
def arity : Operator → Arity
  | .and | .or => .atLeast 1
  | operator => .exactly operator.operandCount

/-- The operators of a category in their usual order. -/
def ofCategory (category : Category) : List Operator :=
  all.filter fun operator => operator.category == category

/-- The list of the operators misses none. -/
theorem mem_all (operator : Operator) : operator ∈ all := by
  cases operator <;> decide

/-- The tag of an operator is read as that operator. -/
@[simp] theorem ofTag?_tag (operator : Operator) : ofTag? operator.tag = some operator := by
  cases operator <;> decide

/-- Only the tag of an operator is read as that operator. -/
theorem tag_of_ofTag? {tag : String} {operator : Operator} (h : ofTag? tag = some operator) :
    operator.tag = tag := by
  unfold ofTag? at h
  simpa using List.find?_some h

end Operator

end EdgeGuard
