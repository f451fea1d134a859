import EdgeGuard.Bindings
import EdgeGuard.Notice
import EdgeGuard.Text.Search

/-!
# `EdgeGuard.Context.Basic`: what the leaves of a tree refer to

A context binds names to values and names to functions. A function takes no argument; what it
gives may depend on the state of the world, which it may change. A call gives a value, fails
with a message, or panics.

A variable is found by its whole name first. A name with dots is then taken as a path: its first
part names a variable, and the others name fields of objects.

* `Context.lookup_setVariable` says what is found after a variable was set.
-/

set_option autoImplicit false

namespace EdgeGuard

/-- What a call of a function gives.

A panic is one that happens while the function runs. That the message of a failure can be put into
words, and that a failure or what a panic carries can be dropped, is taken for granted: user code
that panics there panics outside of the call and has no outcome. -/
inductive Outcome where
  | value (result : Json)
  | failure (message : String)
  | panic
deriving DecidableEq

/-- A function of a context, over a state of the world. -/
abbrev Callable (σ : Type) := σ → Outcome × σ

/-- The variables, with their values, and the functions that a tree may refer to. -/
structure Context (σ : Type) where
  values : Bindings Json
  functions : Bindings (Callable σ)

/-- The value reached by going down the named fields of objects. -/
def Json.descend : Json → List String → Option Json
  | value, [] => some value
  | value, name :: names =>
    match value.field? name with
    | some inner => inner.descend names
    | none => none

namespace Context

variable {σ : Type}

/-- The context without variables and functions. -/
def empty : Context σ := ⟨[], []⟩

/-- The context with these variables and no functions. -/
def ofVariables (values : Bindings Json) : Context σ := ⟨values, []⟩

/-- The context whose variables are the fields of an object. Any other value gives none, with a
notice. -/
def ofJson : Json → Context σ × List Notice
  | .obj fields => (ofVariables fields, [])
  | value => (empty, [.ignoredContext value])

/-- The context with a variable bound. -/
def setVariable (context : Context σ) (name : String) (value : Json) : Context σ :=
  { context with values := context.values.insert name value }

/-- The context with a function bound. -/
def setFunction (context : Context σ) (name : String) (function : Callable σ) : Context σ :=
  { context with functions := context.functions.insert name function }

/-- The parts of a name between its dots. -/
def path (name : String) : List String :=
  (Text.splitAt '.' name.toList).map String.ofList

/-- The value at the end of a path: its first part names a variable. -/
def atPath? (context : Context σ) : List String → Option Json
  | [] => none
  | name :: names => (context.values.get? name).bind fun value => value.descend names

/-- The value of a variable: the one of exactly this name, or else the one at the end of the
path that the name is, if it has a dot. -/
def lookup (context : Context σ) (name : String) : Option Json :=
  match context.values.get? name with
  | some value => some value
  -- Without a dot the path would be the name itself, which is not bound.
  | none => if '.' ∈ name.toList then context.atPath? (path name) else none

/-- The function with a name. -/
def function? (context : Context σ) (name : String) : Option (Callable σ) :=
  context.functions.get? name

/-- Setting a variable binds its name and leaves all other names as they were. -/
@[simp] theorem get?_setVariable (context : Context σ) (name : String) (value : Json)
    (query : String) : (context.setVariable name value).values.get? query
      = if query = name then some value else context.values.get? query :=
  Bindings.get?_insert ..

/-- A variable that was set is found under its name. -/
theorem lookup_setVariable (context : Context σ) (name : String) (value : Json) :
    (context.setVariable name value).lookup name = some value := by
  simp [lookup]

end Context

end EdgeGuard
