import EdgeGuard.Fault
import EdgeGuard.Json.Write
import EdgeGuard.Text.Quoted

/-!
# `EdgeGuard.Notice`: what is noted in the log

Nothing is dropped or replaced without a notice. Each notice has a level and a text.
-/

set_option autoImplicit false

namespace EdgeGuard

/-- How grave a notice is. -/
inductive Level where
  | error
  | warn
  | info
  | debug
deriving DecidableEq

/-- The word for a level. -/
def Level.text : Level → String
  | .error => "ERROR"
  | .warn => "WARN"
  | .info => "INFO"
  | .debug => "DEBUG"

/-- A note in the log. -/
inductive Notice where
  /-- A leaf declares a type that does not exist. -/
  | droppedDataType (raw : Json)
  /-- A leaf has keys without a meaning. -/
  | droppedKeys (names : List String)
  /-- The variables are not given as an object. -/
  | ignoredContext (value : Json)
  /-- The value of a function operand is no name. -/
  | unnamedFunction (value : Json)
  | undefinedFunction (name : String)
  | failedFunction (name : String) (message : String)
  | panickedFunction (name : String)
  /-- An operand that is no node counts as null. -/
  | malformedOperand (raw : Json)
  | evaluationFailed (cause : EvalFault)
  | conditionRejected (cause : Problem)
  | renderingFailed (cause : RenderFault)
  /-- A conditional edge has no condition. -/
  | missingCondition (edge : String)
  /-- The condition of an edge is no JSON text. -/
  | unreadableCondition (edge : String)
  | invalidCondition (edge : String) (cause : Problem)
  | decidedEdge (edge source target : String) (passes : Bool)
  | loadedFile (path format : String)
  | renderingLocale (locale : String)
  /-- No edge of a node can be followed. -/
  | noEdge (source : String)
deriving DecidableEq

namespace Notice

/-- How grave a notice is. -/
def level : Notice → Level
  | .evaluationFailed _ | .renderingFailed _ | .unreadableCondition _ | .invalidCondition .. =>
    .error
  | .ignoredContext _ | .unnamedFunction _ | .undefinedFunction _ | .failedFunction ..
  | .panickedFunction _ | .missingCondition _ => .warn
  | .renderingLocale _ | .noEdge _ => .info
  | .droppedDataType _ | .droppedKeys _ | .malformedOperand _ | .conditionRejected _
  | .decidedEdge .. | .loadedFile .. => .debug

/-- The text of a notice, without its level. -/
def message : Notice → String
  | .droppedDataType raw => "Dropping unrecognised dataType: " ++ raw.compact
  | .droppedKeys names => "Dropping extra operand keys: " ++ Text.quotedList names
  | .ignoredContext value => "Context is not a JSON object, ignoring: " ++ value.compact
  | .unnamedFunction value => "Function operand has no name: " ++ value.compact
  | .undefinedFunction name => "Function '" ++ name ++ "' is not defined"
  | .failedFunction name message => "Function '" ++ name ++ "' failed: " ++ message
  | .panickedFunction name => "Function '" ++ name ++ "' panicked"
  | .malformedOperand raw => "Malformed operand resolves to null: " ++ raw.compact
  | .evaluationFailed cause => "Failed to evaluate condition: " ++ cause.message
  | .conditionRejected cause => "Rejected condition: " ++ cause.message
  | .renderingFailed cause => "Failed to render condition: " ++ cause.message
  | .missingCondition edge => "Conditional edge '" ++ edge ++ "' has no condition"
  | .unreadableCondition edge => "Failed to decode condition of edge '" ++ edge ++ "'"
  | .invalidCondition edge cause =>
    "Invalid condition on edge '" ++ edge ++ "': " ++ cause.message
  | .decidedEdge edge source target passes =>
    "Edge '" ++ edge ++ "' (" ++ source ++ " -> " ++ target ++ ") condition: "
      ++ (if passes then "true" else "false")
  | .loadedFile path format => "Loaded " ++ path ++ " (" ++ format ++ ")"
  | .renderingLocale locale => "Rendering with locale: " ++ locale
  | .noEdge source => "No edge from '" ++ source ++ "' can be followed"

/-- A notice as a line of the log. -/
def line (notice : Notice) : String := notice.level.text ++ " " ++ notice.message

end Notice

end EdgeGuard
