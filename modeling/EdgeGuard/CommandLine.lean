import EdgeGuard.Document.Load
import EdgeGuard.Edge.Route
import EdgeGuard.EnvFile
import EdgeGuard.Expr.Render
import EdgeGuard.Settings

/-!
# `EdgeGuard.CommandLine`: the commands of the program

Four commands work on files: `validate` checks a tree, `eval` decides it, `render` puts it into
words, and `route` lists the edges of a node that can be followed. What a command prints and how it
ends depends on its arguments, the environment and the files alone.

* `CommandLine.parse` reads the arguments, as clap does; what it takes to be the behaviour of
  clap is said at `CommandLine.options`.
* `CommandLine.run` gives what a command prints and its exit code.
-/

set_option autoImplicit false

namespace EdgeGuard.CommandLine

/-- A command. -/
inductive Command where
  | validate (tree : String)
  | eval (tree : String) (context : Option String)
  | render (tree : String) (locale : Option Locale)
  | route (edges source : String) (context : Option String)

/-- An option of a command. -/
inductive Flag where
  | expr
  | context
  | locale
  | edges
  | source
deriving DecidableEq

namespace Flag

/-- The letter of an option. -/
def short : Flag → Char
  | .expr => 'e'
  | .context => 'c'
  | .locale => 'l'
  | .edges => 'e'
  | .source => 'f'

/-- The word of an option. -/
def long : Flag → String
  | .expr => "expr"
  | .context => "context"
  | .locale => "locale"
  | .edges => "edges"
  | .source => "from"

end Flag

/-- An argument as it is written: an option, perhaps with its value in the same argument. -/
inductive Argument where
  | flag (flag : Flag) (value : Option String)
  | other

/-- What an argument is to a command with these options. -/
def argument (flags : List Flag) (text : String) : Argument :=
  match text.toList with
  -- A word behind two hyphens, with the value behind an equals sign.
  | '-' :: '-' :: cs =>
    let name := String.ofList (cs.takeWhile (· != '='))
    match flags.find? (·.long == name), cs.dropWhile (· != '=') with
    | some flag, _ :: value => .flag flag (some (String.ofList value))
    | some flag, [] => .flag flag none
    | none, _ => .other
  -- A letter behind one hyphen, with the value right behind it or behind an equals sign.
  | '-' :: c :: cs =>
    match flags.find? (·.short == c), cs with
    | some flag, [] => .flag flag none
    | some flag, '=' :: value => .flag flag (some (String.ofList value))
    | some flag, value => .flag flag (some (String.ofList value))
    | none, _ => .other
  | _ => .other

/-- Whether an argument can be the value of the option before it. -/
def isValue (text : String) : Bool :=
  match text.toList with
  -- One hyphen alone is a value; anything longer that starts with one looks like an option.
  | '-' :: _ :: _ => false
  | _ => true

/-- Reads the options of a command. Each may stand once and has a value. Two hyphens may end
them.

This stands for clap, as it reads the options declared for a command, and assumes of it the
following.

* An option is given by its word behind two hyphens or by its letter behind one. Words are not
  abbreviated.
* Its value stands in the same argument, behind an equals sign or right behind the letter, or it is
  the next argument. The next argument is refused when it looks like an option itself (`isValue`).
* An option given twice is refused, and so is an argument that is no option, also behind two
  hyphens: no command takes arguments of its own.
* A value for a path is refused when it is empty (`path?`), and one for a language when it names
  none (`optionalLocale?`).

The requests for help and for the version, which clap answers by itself, are no options here. -/
def options (flags : List Flag) : List String → Option (List (Flag × String))
  | [] => some []
  | ["--"] => some []
  | text :: rest =>
    match argument flags text, rest with
    | .flag flag (some value), rest => (options flags rest).bind (add flag value)
    | .flag flag none, value :: rest =>
      if isValue value then (options flags rest).bind (add flag value) else none
    | .flag _ none, [] => none
    | .other, _ => none
where
  /-- Puts an option before others, unless it is among them. -/
  add (flag : Flag) (value : String) (others : List (Flag × String)) :
      Option (List (Flag × String)) :=
    if others.any (·.1 == flag) then none else some ((flag, value) :: others)

/-- The path that an option gives. An empty one is no path. -/
def path? (given : List (Flag × String)) (flag : Flag) : Option String :=
  (given.lookup flag).filter (· != "")

/-- The path that an option gives, if the option is there. -/
def optionalPath? (given : List (Flag × String)) (flag : Flag) : Option (Option String) :=
  match given.lookup flag with
  | none => some none
  | some _ => (path? given flag).map some

/-- The language that an option gives, if the option is there. -/
def optionalLocale? (given : List (Flag × String)) : Option (Option Locale) :=
  match given.lookup .locale with
  | none => some none
  | some text => (Locale.ofText text).toOption.map some

/-- The command that arguments ask for. -/
def parse : List String → Option Command
  | [] => none
  | name :: rest =>
    if name == "validate" then do
      let given ← options [.expr] rest
      return .validate (← path? given .expr)
    else if name == "eval" then do
      let given ← options [.expr, .context] rest
      return .eval (← path? given .expr) (← optionalPath? given .context)
    else if name == "render" then do
      let given ← options [.expr, .locale] rest
      return .render (← path? given .expr) (← optionalLocale? given)
    else if name == "route" then do
      let given ← options [.edges, .source, .context] rest
      return .route (← path? given .edges) (← given.lookup .source)
        (← optionalPath? given .context)
    else none

/-- The files that a command reads. -/
def Command.files : Command → List String
  | .validate tree => [tree]
  | .eval tree context => tree :: context.toList
  | .render tree _ => [tree]
  | .route edges _ context => edges :: context.toList

/-! ### What a command does -/

/-- Why a command prints nothing. -/
inductive Failure where
  | document (cause : DocumentFault)
  | settings (cause : UnknownLocale)

/-- The words for a command that prints nothing. -/
def Failure.message : Failure → String
  | .document cause => cause.message
  | .settings cause => cause.message

/-- What a command prints, with the log of its run. -/
structure Output where
  text : String
  log : List Notice

/-- Loads a document, as a step of a command. -/
def loadFrom {α : Type} (read : FileReader) (target : Document.Target α) (path : String) :
    Except Failure (α × List Notice) :=
  (Document.load read target path).mapError .document

/-- The context that the variables of a file make, or the empty one. -/
def contextOf (read : FileReader) : Option String → Except Failure (Context Unit × List Notice)
  | none => .ok (.empty, [])
  | some path => do
    let (values, notices) ← loadFrom read Document.bindings path
    return (.ofVariables values, notices)

/-- Checks a tree. -/
def validate (read : FileReader) (path : String) : Except Failure Output := do
  let ((expr, dropped), loaded) ← loadFrom read Document.tree path
  let text :=
    match expr.check with
    | .ok () => "valid"
    | .error problem => "invalid: " ++ problem.message
  return ⟨text ++ "\n", loaded ++ dropped⟩

/-- Decides a tree. -/
def eval (read : FileReader) (path : String) (context : Option String) :
    Except Failure Output := do
  let ((expr, dropped), loaded) ← loadFrom read Document.tree path
  let (context, more) ← contextOf read context
  let (result, run) := expr.evaluate context (.start ())
  return ⟨(if result then "true" else "false") ++ "\n", loaded ++ dropped ++ more ++ run.log⟩

/-- Puts a tree into words. -/
def render (lookup : String → Option String) (read : FileReader) (path : String)
    (locale : Option Locale) : Except Failure Output := do
  let settings ← (Settings.ofLookup lookup).mapError .settings
  let locale := (settings.withLocale locale).locale
  let ((expr, dropped), loaded) ← loadFrom read Document.tree path
  let (text, notices) := expr.toText locale
  return ⟨text ++ "\n", .renderingLocale locale.tag :: (loaded ++ dropped ++ notices)⟩

/-- Lists the edges of a node that can be followed. -/
def route (read : FileReader) (path source : String) (context : Option String) :
    Except Failure Output := do
  let (edges, loaded) ← loadFrom read Document.edges path
  let (context, more) ← contextOf read context
  let (selected, run) := Edge.select context source edges (.start ())
  let notices := if selected.isEmpty then [Notice.noEdge source] else []
  return ⟨String.join (selected.map fun edge => edge.line ++ "\n"),
    loaded ++ more ++ run.log ++ notices⟩

/-- What a command prints, or why it prints nothing. -/
def Command.output (lookup : String → Option String) (read : FileReader) :
    Command → Except Failure Output
  | .validate tree => CommandLine.validate read tree
  | .eval tree context => CommandLine.eval read tree context
  | .render tree locale => CommandLine.render lookup read tree locale
  | .route edges source context => CommandLine.route read edges source context

/-- How a run of the program ends: its exit code, what it prints, and what it complains about. -/
structure Ending where
  code : Nat
  text : String
  complaints : List String
deriving DecidableEq

/-- The file that may add to the environment. -/
def environmentFile : String := ".env"

/-- The environment of a run, if there is one. -/
def environmentOf (environment : EnvFile.Environment) (read : FileReader) :
    Option EnvFile.Environment :=
  match read environmentFile with
  | .ok bytes => EnvFile.apply environment bytes
  | .error _ => some environment

/-- How the arguments are to be used. -/
def usage : String :=
  "usage: validate -e TREE | eval -e TREE [-c VARIABLES] | render -e TREE [-l LOCALE]"
    ++ " | route -e EDGES -f SOURCE [-c VARIABLES]"

/-- The errors among notices, as lines. -/
def errorLines (notices : List Notice) : List String :=
  (notices.filter (·.level == .error)).map Notice.line

/-- Runs the program: without an environment it ends with code 101, a wrong use with code 2, a
failure with code 1, and anything else with code 0. -/
def run (arguments : List String) (environment : EnvFile.Environment) (read : FileReader) : Ending :=
  match environmentOf environment read, parse arguments with
  | none, _ => ⟨101, "", ["A variable of the environment cannot hold a zero character"]⟩
  | some _, none => ⟨2, "", [usage]⟩
  | some environment, some command =>
    match command.output (fun name => environment.lookup name) read with
    | .ok output => ⟨0, output.text, errorLines output.log⟩
    | .error failure => ⟨1, "", ["Error: " ++ failure.message]⟩

end EdgeGuard.CommandLine
