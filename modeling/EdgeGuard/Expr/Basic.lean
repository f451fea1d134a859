import EdgeGuard.Json.Basic
import EdgeGuard.Json.Write
import EdgeGuard.Operator

/-!
# `EdgeGuard.Expr.Basic`: the tree of a condition

An inner node applies an operator to a list of operands; a leaf names a variable or a function
or holds a constant. A tree that was stored may hold unknown operators and values that are no
node at all, so that a check can report them: `OperatorTag.unknown` and `Expr.malformed`.
-/

set_option autoImplicit false

namespace EdgeGuard

/-- The operator as it is written in a tree. -/
inductive OperatorTag where
  | known (operator : Operator)
  /-- A text that is no tag of an operator. -/
  | unknown (text : String)
deriving DecidableEq

/-- How a leaf gets its value. -/
inductive OperandKind where
  | variable
  | constant
  | function
deriving DecidableEq, Repr

/-- The type that an editor declares for a leaf. It has no effect on a decision. -/
inductive DataType where
  | string
  | number
  | boolean
  | date
  | object
  | array
deriving DecidableEq, Repr

/-- A leaf of a tree. The value of a variable or function is its name. -/
structure Operand where
  kind : OperandKind
  value : Json
  dataType : Option DataType
deriving DecidableEq

/-- A tree. -/
inductive Expr where
  /-- An operator with its operands. -/
  | condition (operator : OperatorTag) (operands : List Expr)
  /-- A variable, constant or function. -/
  | leaf (operand : Operand)
  /-- A stored value that is neither. -/
  | malformed (raw : Json)
deriving Inhabited

namespace OperatorTag

/-- The operator, if the tag is known. -/
def operator? : OperatorTag → Option Operator
  | .known operator => some operator
  | .unknown _ => none

/-- The tag as it is written. -/
def text : OperatorTag → String
  | .known operator => operator.tag
  | .unknown text => text

/-- The tag with a text: known when an operator has it. -/
def ofText (text : String) : OperatorTag :=
  match Operator.ofTag? text with
  | some operator => .known operator
  | none => .unknown text

end OperatorTag

namespace OperandKind

/-- The tag of a kind. -/
def tag : OperandKind → String
  | .variable => "variable"
  | .constant => "constant"
  | .function => "function"

/-- The kinds in their usual order. -/
def all : List OperandKind := [.variable, .constant, .function]

/-- The kinds under their tags. -/
def tags : List (String × OperandKind) := all.map fun kind => (kind.tag, kind)

/-- The kind with a tag. -/
def ofTag? (tag : String) : Option OperandKind := all.find? fun kind => kind.tag == tag

/-- The tag of a kind is read as that kind. -/
@[simp] theorem ofTag?_tag (kind : OperandKind) : ofTag? kind.tag = some kind := by
  cases kind <;> decide

end OperandKind

namespace DataType

/-- The tag of a type. -/
def tag : DataType → String
  | .string => "string"
  | .number => "number"
  | .boolean => "boolean"
  | .date => "date"
  | .object => "object"
  | .array => "array"

/-- The types in their usual order. -/
def all : List DataType := [.string, .number, .boolean, .date, .object, .array]

/-- The types under their tags. -/
def tags : List (String × DataType) := all.map fun type => (type.tag, type)

/-- The type with a tag. -/
def ofTag? (tag : String) : Option DataType := all.find? fun type => type.tag == tag

/-- The tag of a type is read as that type. -/
@[simp] theorem ofTag?_tag (type : DataType) : ofTag? type.tag = some type := by
  cases type <;> decide

end DataType

namespace Operand

/-- A leaf that names a variable. -/
def ofVariable (name : String) : Operand := ⟨.variable, .str name, none⟩

/-- A leaf that holds a value. -/
def ofConstant (value : Json) : Operand := ⟨.constant, value, none⟩

/-- A leaf that names a function. -/
def ofFunction (name : String) : Operand := ⟨.function, .str name, none⟩

/-- The leaf of a kind that an editor starts with. -/
def empty (kind : OperandKind) : Operand := ⟨kind, .str "", some .string⟩

/-- The leaf with a declared type. -/
def withDataType (leaf : Operand) (type : DataType) : Operand := { leaf with dataType := some type }

/-- The name that the value of a leaf stands for: the text of a string, number or truth value. -/
def name? (leaf : Operand) : Option String :=
  match leaf.value with
  | .str text => some text
  | .num value => some (String.ofList value.chars)
  | .bool true => some "true"
  | .bool false => some "false"
  | _ => none

/-- Whether two leaves are the same when stored. -/
def same (a b : Operand) : Bool :=
  a.kind == b.kind && a.value.same b.value && a.dataType == b.dataType

end Operand

namespace Expr

/-- The condition that an editor starts with: an empty variable equals an empty constant. -/
def emptyCondition : Expr :=
  .condition (.known .eq) [.leaf (.empty .variable), .leaf (.empty .constant)]

/-- Whether the root of a tree is a condition. -/
def isCondition : Expr → Bool
  | .condition .. => true
  | _ => false

mutual

/-- Whether two trees are the same when stored. -/
def same : Expr → Expr → Bool
  | .condition a as, .condition b bs => a == b && sameAll as bs
  | .leaf a, .leaf b => a.same b
  | .malformed a, .malformed b => a.same b
  | _, _ => false

/-- Two lists of trees are the same when they have one length and the same trees in each place. -/
def sameAll : List Expr → List Expr → Bool
  | [], [] => true
  | a :: as, b :: bs => same a b && sameAll as bs
  | _, _ => false

end

end Expr

end EdgeGuard
