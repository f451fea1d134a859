import EdgeGuard.Expr.Basic
import EdgeGuard.Locale
import EdgeGuard.Notice

/-!
# `EdgeGuard.Expr.Render`: a tree as a sentence

A condition is put into the words of a language, with nested conditions in parentheses. Text
constants stand in quotes. Operands behind those that an operator takes are left out.

* `Expr.render` gives the sentence of a tree or the first fault from the left.
* `Expr.toText` gives a sentence for every tree.
-/

set_option autoImplicit false

namespace EdgeGuard

/-- A value as it stands in a sentence: a string without quotes, anything else as its compact
text. -/
def Json.bare : Json → String
  | .str text => text
  | value => value.compact

namespace Operand

/-- Whether a constant stands in quotes: by its declared type, or else by its value. -/
def isQuoted (operand : Operand) : Bool :=
  match operand.dataType, operand.value with
  | some type, _ => type == .string
  | none, .str _ => true
  | none, _ => false

/-- The words for a leaf. -/
def render (locale : Locale) (operand : Operand) : String :=
  match operand.kind with
  | .variable => locale.variableText operand.value.bare
  | .function => locale.functionText operand.value.bare
  | .constant =>
    if operand.isQuoted then "\"" ++ operand.value.bare ++ "\"" else operand.value.bare

end Operand

/-- The words for an operand, or why it has none. -/
abbrev Slot := Except RenderFault String

/-- The words of all slots, or the first fault among them. -/
def allWords : List Slot → Except RenderFault (List String)
  | [] => .ok []
  | slot :: rest => do
    let words ← slot
    let more ← allWords rest
    return words :: more

/-- The words of the first slot of an operator that takes one. -/
def firstWords (operator : Operator) : List Slot → Except RenderFault String
  | [] => .error (.missingOperand operator 0)
  | slot :: _ => slot

/-- The words of the first two slots of an operator that takes two. -/
def pairWords (operator : Operator) (slots : List Slot) : Except RenderFault (String × String) := do
  let left ← firstWords operator slots
  match slots with
  | _ :: slot :: _ => return (left, ← slot)
  | _ => .error (.missingOperand operator 1)

/-- A phrase with its two operands. -/
def Phrase.fill (phrase : Phrase) (left right : String) : String :=
  let sentence := left ++ " " ++ phrase.middle ++ " " ++ right
  match phrase.closing with
  | some closing => sentence ++ " " ++ closing
  | none => sentence

/-- The sentence of an operator over the words for its operands. -/
def Locale.sentence (locale : Locale) (operator : Operator) (slots : List Slot) :
    Except RenderFault String :=
  match operator with
  | .and => do return (" " ++ locale.conjunction ++ " ").intercalate (← allWords slots)
  | .or => do return (" " ++ locale.disjunction ++ " ").intercalate (← allWords slots)
  | .not => do return locale.negation ++ " " ++ (← firstWords .not slots)
  | .isNull => do return (← firstWords .isNull slots) ++ " " ++ locale.isNull
  | .isNotNull => do return (← firstWords .isNotNull slots) ++ " " ++ locale.isNotNull
  | operator => do
    let (left, right) ← pairWords operator slots
    return (locale.phrase operator).fill left right

namespace Expr

mutual

/-- The words for an operand: a nested condition stands in parentheses. -/
def renderOperand (locale : Locale) : Expr → Slot
  | .condition tag operands =>
    match tag with
    | .unknown text => .error (.unknownOperator text)
    | .known operator => do
      return "(" ++ (← locale.sentence operator (renderOperands locale operands)) ++ ")"
  | .leaf operand => .ok (operand.render locale)
  | .malformed _ => .ok locale.unknownOperand

/-- The slots for the operands of a condition. A failure in one is seen only when the sentence uses
that slot. -/
def renderOperands (locale : Locale) : List Expr → List Slot
  | [] => []
  | operand :: rest => renderOperand locale operand :: renderOperands locale rest

end

/-- The sentence of a tree. -/
def render (locale : Locale) : Expr → Except RenderFault String
  | .condition tag operands =>
    match tag with
    | .unknown text => .error (.unknownOperator text)
    | .known operator => locale.sentence operator (renderOperands locale operands)
  | .leaf operand => .ok (operand.render locale)
  | .malformed _ => .error .malformedNode

/-- A sentence for a tree. A tree that has none gets fixed words, with a notice. -/
def toText (locale : Locale) (expr : Expr) : String × List Notice :=
  match expr.render locale with
  | .ok text => (text, [])
  | .error fault => (locale.invalidExpression, [.renderingFailed fault])

end Expr

end EdgeGuard
