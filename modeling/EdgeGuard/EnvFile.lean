import EdgeGuard.Text.Alphanumeric
import EdgeGuard.Text.Blank
import EdgeGuard.Text.Search

/-!
# `EdgeGuard.EnvFile`: variables of the environment from a file

Each line of the file binds a name to a text, possibly behind the word `export`. Empty lines and
comments bind nothing. A text may be quoted and may refer to variables by a dollar sign. Variables
that the environment has already keep their value. Reading stops at the first line that is no
binding.

* `EnvFile.bindings` reads a file, and `EnvFile.names` lists the variables that it asks about.
* `EnvFile.apply` gives the environment that a file makes of another one, if there is one.
-/

set_option autoImplicit false

namespace EdgeGuard.EnvFile

/-- The variables of an environment. -/
abbrev Environment := List (String × String)

/-- A part of the text that a line gives a variable. -/
inductive Piece where
  | char (c : Char)
  /-- The value of a variable, or nothing if it has none. -/
  | reference (name : String)
deriving DecidableEq

/-- A line that gives a variable a text. -/
structure Binding where
  name : String
  pieces : List Piece
deriving DecidableEq

/-- Reads a name. -/
def name? (cs : List Char) : Option (String × List Char) :=
  if cs.head?.any startsName then
    some (String.ofList (cs.takeWhile continuesName), cs.dropWhile continuesName)
  else none
where
  /-- Whether a name may start with a character. -/
  startsName (c : Char) : Bool := c.isAlpha || c == '_'
  /-- Whether a name may go on with a character. -/
  continuesName (c : Char) : Bool := c.isAlphanum || c == '_' || c == '.'

/-- The characters behind blanks. -/
def skipBlank (cs : List Char) : List Char := cs.dropWhile Text.isBlank

/-- Reads an equals sign. -/
def equalsSign? : List Char → Option (List Char)
  | '=' :: rest => some rest
  | _ => none

/-- Reads a name and an equals sign. The word `export` may stand before the name. -/
def assignment? (cs : List Char) : Option (String × List Char) := do
  let (name, rest) ← name? cs
  let rest := skipBlank rest
  match equalsSign? rest with
  | some rest => some (name, skipBlank rest)
  | none =>
    if name == "export" then
      let (name, rest) ← name? rest
      let rest ← equalsSign? (skipBlank rest)
      some (name, skipBlank rest)
    else none

/-! ### Values -/

/-- Where a reader stands inside a value. -/
inductive Place where
  | plain
  /-- Inside single quotes. -/
  | strong
  /-- Inside double quotes. -/
  | weak
  /-- Behind a backslash, inside double quotes or not. -/
  | escape (inWeak : Bool)
  /-- Behind a dollar sign and the characters of a name, the last one first. -/
  | reference (inWeak : Bool) (name : List Char)
  /-- The same behind an opening brace. -/
  | braced (inWeak : Bool) (name : List Char)
  /-- Behind the value. -/
  | done

/-- The place of a reader inside or outside double quotes. -/
def Place.within (inWeak : Bool) : Place := if inWeak then .weak else .plain

/-- The reference to a variable whose name is given with the last character first. -/
def referenceTo (name : List Char) : Piece := .reference (String.ofList name.reverse)

/-- Reads a value. -/
def pieces : Place → List Char → Option (List Piece)
  | .plain, [] | .done, [] | .escape false, [] => some []
  | .reference false name, [] => some [referenceTo name]
  | _, [] => none
  | .done, c :: cs =>
    if c == ' ' || c == '\t' then pieces .done cs
    else if c == '#' then some []
    else none
  | .escape inWeak, c :: cs =>
    if c == '\\' || c == '\'' || c == '"' || c == '$' || c == ' ' then
      (pieces (.within inWeak) cs).map (.char c :: ·)
    else if c == 'n' then (pieces (.within inWeak) cs).map (.char '\n' :: ·)
    else none
  | .strong, c :: cs =>
    if c == '\'' then pieces .plain cs else (pieces .strong cs).map (.char c :: ·)
  | .reference inWeak name, c :: cs =>
    if Text.isAlphanumeric c then pieces (.reference inWeak (c :: name)) cs
    else if c == '\x7b' && name.isEmpty then pieces (.braced inWeak []) cs
    else if c == '$' then (pieces (.reference inWeak []) cs).map (referenceTo name :: ·)
    else (pieces (.within inWeak) cs).map (referenceTo name :: .char c :: ·)
  | .braced inWeak name, c :: cs =>
    if c == '\x7d' then (pieces (.within inWeak) cs).map (referenceTo name :: ·)
    else pieces (.braced inWeak (c :: name)) cs
  | .weak, c :: cs =>
    if c == '$' then pieces (.reference true []) cs
    else if c == '"' then pieces .plain cs
    else if c == '\\' then pieces (.escape true) cs
    else (pieces .weak cs).map (.char c :: ·)
  | .plain, c :: cs =>
    if c == '$' then pieces (.reference false []) cs
    else if c == '\'' then pieces .strong cs
    else if c == '"' then pieces .weak cs
    else if c == '\\' then pieces (.escape false) cs
    else if c == ' ' || c == '\t' then pieces .done cs
    else (pieces .plain cs).map (.char c :: ·)

/-! ### Lines -/

/-- What a line of a file says. -/
inductive Line where
  | nothing
  | binding (binding : Binding)
  /-- The line is no binding. -/
  | faulty

/-- Reads a line. -/
def line (cs : List Char) : Line :=
  match skipBlank (cs.reverse.dropWhile Text.isBlank).reverse with
  | [] => .nothing
  | '#' :: _ => .nothing
  | cs =>
    match assignment? cs with
    | none => .faulty
    | some (name, []) => .binding ⟨name, []⟩
    | some (name, '#' :: _) => .binding ⟨name, []⟩
    | some (name, rest) =>
      match pieces .plain rest with
      | some parts => .binding ⟨name, parts⟩
      | none => .faulty

/-- The bindings of lines up to the first one that is faulty. -/
def lineBindings : List (List Char) → List Binding
  | [] => []
  | cs :: rest =>
    match line cs with
    | .nothing => lineBindings rest
    | .binding binding => binding :: lineBindings rest
    | .faulty => []

/-- The lines of a file up to the first one that is no text. -/
def textLines (bytes : ByteArray) : List (List Char) :=
  decoded ((Text.splitAt 10 bytes.toList).map fun line => String.fromUTF8? ⟨line.toArray⟩)
where
  /-- The texts before the first line that is none. -/
  decoded : List (Option String) → List (List Char)
    | some text :: rest => text.toList :: decoded rest
    | _ => []

/-- The bindings of a file. -/
def bindings (bytes : ByteArray) : List Binding := lineBindings (textLines bytes)

/-- The variables that a binding asks about: its own and those that it refers to. -/
def Binding.names (binding : Binding) : List String :=
  binding.name :: binding.pieces.filterMap fun
    | .reference name => some name
    | .char _ => none

/-- The variables that a file asks about. -/
def names (bytes : ByteArray) : List String := (bindings bytes).flatMap Binding.names

/-! ### Environments -/

/-- The text of pieces, where variables have the values that `lookup` gives. -/
def expand (lookup : String → Option String) (parts : List Piece) : String :=
  String.join <| parts.map fun
    | .char c => c.toString
    | .reference name => (lookup name).getD ""

/-- Whether a variable can hold a text: a zero character would end it. -/
def canHold (text : String) : Bool := !text.toList.contains '\x00'

/-- The environment with bindings added, where `seen` holds the bindings before them. There is none
when a variable cannot hold its text. -/
def applyBindings (environment seen : Environment) : List Binding → Option Environment
  | [] => some environment
  | binding :: rest =>
    let lookup (name : String) : Option String :=
      (environment.lookup name).or (seen.lookup name)
    let text := expand lookup binding.pieces
    let seen := (binding.name, text) :: seen
    if (environment.lookup binding.name).isSome then applyBindings environment seen rest
    else if canHold text then applyBindings (environment ++ [(binding.name, text)]) seen rest
    else none

/-- The environment with the bindings of a file added, if there is one. -/
def apply (environment : Environment) (bytes : ByteArray) : Option Environment :=
  applyBindings environment [] (bindings bytes)

end EdgeGuard.EnvFile
