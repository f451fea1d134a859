import EdgeGuard.Expr.Basic
import EdgeGuard.Notice

/-!
# `EdgeGuard.Expr.Decode`: trees from stored values, and stored values from trees

A stored object is a condition when it has the key `operator` and a list under `operands`,
and a leaf when it has no key `operator` and its `type` is a kind of leaf. Everything else is
kept as a malformed node, so reading a tree never fails. What a leaf carries beyond its type,
value and data type is dropped with a notice.

* `Expr.ofJson` reads a tree, `Expr.decodeNotices` says what was dropped on the way.
* `Expr.toJson` is the stored value of a tree.
* `Expr.operandsIn_eq` says that the operands are those of the list under `operands`.
-/

set_option autoImplicit false

namespace EdgeGuard

/-! ### Leaves -/

namespace Operand

/-- The keys of a leaf. -/
def keys : List String := ["type", "value", "dataType"]

/-- The kind of leaf that the fields of an object declare. -/
def kindIn? (fields : Bindings Json) : Option OperandKind :=
  ((fields.get? "type").bind Json.str?).bind OperandKind.ofTag?

/-- The data type that a value names. -/
def dataTypeOf? (raw : Json) : Option DataType := raw.str?.bind DataType.ofTag?

/-- The leaf that the fields of an object describe. -/
def ofFields (kind : OperandKind) (fields : Bindings Json) : Operand :=
  ⟨kind, (fields.get? "value").getD .null, (fields.get? "dataType").bind dataTypeOf?⟩

/-- What is dropped when a leaf is read: a data type that does not exist, then the keys that a
leaf does not have. -/
def notices (fields : Bindings Json) : List Notice :=
  let type :=
    match fields.get? "dataType" with
    | some raw => if (dataTypeOf? raw).isNone then [.droppedDataType raw] else []
    | none => []
  let extra := (fields.without keys).names
  type ++ (if extra.isEmpty then [] else [.droppedKeys extra])

/-- The fields of the stored object of a leaf. -/
def toFields (leaf : Operand) : List (String × Json) :=
  ("type", .str leaf.kind.tag) :: ("value", leaf.value) ::
    (match leaf.dataType with
    | some type => [("dataType", .str type.tag)]
    | none => [])

end Operand

namespace OperatorTag

/-- The operator that a value names. A value that is no string is kept as its text. -/
def ofJson : Json → OperatorTag
  | .str tag => ofText tag
  | raw => .unknown raw.compact

end OperatorTag

namespace Expr

/-! ### Reading -/

mutual

/-- The tree that a stored value stands for. -/
def ofJson : Json → Expr
  | .obj fields =>
    match Bindings.get? fields "operator" with
    | some tag =>
      match operandsIn fields with
      | some operands => .condition (.ofJson tag) operands
      | none => .malformed (.obj fields)
    -- Only an object without an operator is asked for its type.
    | none =>
      match Operand.kindIn? fields with
      | some kind => .leaf (.ofFields kind fields)
      | none => .malformed (.obj fields)
  | raw => .malformed raw

/-- The trees in the list under `operands`, if the fields have a list there. -/
def operandsIn : List (String × Json) → Option (List Expr)
  | [] => none
  | (name, value) :: rest =>
    if name = "operands" then operandsOf value else operandsIn rest

/-- The trees in a list. -/
def operandsOf : Json → Option (List Expr)
  | .arr items => some (ofItems items)
  | _ => none

def ofItems : List Json → List Expr
  | [] => []
  | value :: rest => ofJson value :: ofItems rest

end

/-- The operands are read one by one, so the recursion over the list is a map. -/
theorem ofItems_eq_map (items : List Json) : ofItems items = items.map ofJson := by
  induction items with
  | nil => rfl
  | cons value rest ih => simp [ofItems, ih]

/-- The operands are the items of the list under `operands`. -/
theorem operandsIn_eq (fields : List (String × Json)) :
    operandsIn fields = (Bindings.get? fields "operands").bind operandsOf := by
  induction fields with
  | nil => rfl
  | cons pair rest ih =>
    obtain ⟨name, value⟩ := pair
    simp only [operandsIn, Bindings.get?_cons, ih, eq_comm (a := name)]
    split <;> rfl

mutual

/-- What is dropped when a tree is read, from left to right. -/
def decodeNotices : Json → List Notice
  | .obj fields =>
    match Bindings.get? fields "operator" with
    | some _ => noticesIn fields
    | none => if (Operand.kindIn? fields).isSome then Operand.notices fields else []
  | _ => []

/-- The first field named `operands` is the one whose items are read, so only its notices count. -/
def noticesIn : List (String × Json) → List Notice
  | [] => []
  | (name, value) :: rest => if name = "operands" then noticesOf value else noticesIn rest

/-- Operands that are no list are not read, and nothing in them is noticed. -/
def noticesOf : Json → List Notice
  | .arr items => noticesOfItems items
  | _ => []

def noticesOfItems : List Json → List Notice
  | [] => []
  | value :: rest => decodeNotices value ++ noticesOfItems rest

end

/-! ### Writing -/

mutual

/-- The stored value of a tree, with the operator before the operands. -/
def toJson : Expr → Json
  | .condition operator operands =>
    .obj [("operator", .str operator.text), ("operands", .arr (toItems operands))]
  | .leaf operand => .obj operand.toFields
  | .malformed raw => raw

def toItems : List Expr → List Json
  | [] => []
  | operand :: rest => toJson operand :: toItems rest

end

/-- The operands are stored one by one, so the recursion over the list is a map. -/
theorem toItems_eq_map (operands : List Expr) : toItems operands = operands.map toJson := by
  induction operands with
  | nil => rfl
  | cons operand rest ih => simp [toItems, ih]

/-- The stored text of a tree. -/
def encode (expr : Expr) : String := expr.toJson.compact

end Expr

end EdgeGuard
