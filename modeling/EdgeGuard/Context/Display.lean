import EdgeGuard.Context.Basic

/-!
# `EdgeGuard.Context.Display`: a context as text for developers

The text names the kind of every value: `Number(1.0)`, `String("x")`, `Array [..]`,
`Object {..}`. Functions appear by their names only.
-/

set_option autoImplicit false

namespace EdgeGuard

namespace Json

mutual

/-- A value with its kind. -/
def display : Json → String
  | .null => "Null"
  | .bool true => "Bool(true)"
  | .bool false => "Bool(false)"
  | .num value => "Number(" ++ String.ofList value.chars ++ ")"
  | .str text => "String(" ++ Text.quoted text ++ ")"
  | .arr items => "Array [" ++ displayItems items ++ "]"
  | .obj fields => "Object \x7b" ++ displayFields fields ++ "\x7d"

def displayItems : List Json → String
  | [] => ""
  | value :: rest => display value ++ (if rest.isEmpty then "" else ", ") ++ displayItems rest

def displayFields : List (String × Json) → String
  | [] => ""
  | (name, value) :: rest =>
    Text.quoted name ++ ": " ++ display value ++ (if rest.isEmpty then "" else ", ")
      ++ displayFields rest

end

end Json

namespace Context

variable {σ : Type}

/-- A context as text: its variables with their values and the names of its functions. -/
def display (context : Context σ) : String :=
  "EvaluationContext \x7b variables: \x7b" ++ Json.displayFields context.values
    ++ "\x7d, functions: " ++ Text.quotedList context.functions.names ++ " \x7d"

end Context

end EdgeGuard
