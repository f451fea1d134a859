import EdgeGuard.Document.Folder
import EdgeGuard.Edge.Decode
import EdgeGuard.Yaml.Decode

/-!
# `EdgeGuard.Document.Load`: trees, variables and edges from files

A document is a JSON or YAML text that holds a tree, the variables of a context, or a list of edges.

* `Document.parse` decodes a text of a known format.
* `Document.load` decodes a file: its format is told by its path before it is read.
-/

set_option autoImplicit false

namespace EdgeGuard

/-- Why a document gives nothing. -/
inductive DocumentFault where
  /-- The path stands for no format. -/
  | unsupportedFormat (path : String)
  | file (cause : FileFault)
  | json (cause : Json.ReadError)
  | yaml (cause : Yaml.Fault)

/-- The words for a document that gives nothing. -/
def DocumentFault.message : DocumentFault → String
  | .unsupportedFormat path => "Unsupported file format: " ++ path
  | .file cause => cause.message
  | .json .malformed => "Malformed JSON"
  | .json .truncated => "Unfinished JSON"
  | .json (.mismatch cause) => cause.message
  | .yaml _ => "Malformed or unexpected YAML"

namespace Document

/-- What a document is asked to hold, with how it is decoded from each format. -/
structure Target (α : Type) where
  json : String → Except Json.ReadError α
  yaml : String → Except Yaml.Fault α

/-- A tree together with what was dropped when it was read. -/
def treeOf (raw : Json) : Expr × List Notice := (.ofJson raw, Expr.decodeNotices raw)

/-- Reads the variables of a context from JSON text. -/
def variablesReader : Json.Reader (Bindings Json) := fun cs =>
  match Json.skipSpace cs with
  | '\x7b' :: rest => do
    let (pairs, rest) ← Json.fields Json.string (Json.value (Json.depthLimit - 1)) rest
    return (Bindings.ofList pairs, rest)
  | _ => Json.kindMismatch .map cs

/-- A document that holds a tree. -/
def tree : Target (Expr × List Notice) where
  json text := (Json.read text).map treeOf
  yaml text := (Yaml.valueOf text).map treeOf

/-- A document that holds variables. -/
def bindings : Target (Bindings Json) where
  json := Json.readAll variablesReader
  yaml := Yaml.variablesOf

/-- A document that holds edges. -/
def edges : Target (List Edge) where
  json := Json.readAll Edge.listReader
  yaml := Yaml.edgesOf

/-- Decodes a text of a format. -/
def parse {α : Type} (target : Target α) (format : Format) (text : String) :
    Except DocumentFault α :=
  match format with
  | .json => (target.json text).mapError .json
  | .yaml => (target.yaml text).mapError .yaml

/-- The format that a path stands for, or the fault that it stands for none. -/
def formatOf (path : String) : Except DocumentFault Format :=
  match Format.ofPath? path with
  | some format => .ok format
  | none => .error (.unsupportedFormat path)

/-- Decodes a file. -/
def load {α : Type} (read : FileReader) (target : Target α) (path : String) :
    Except DocumentFault (α × List Notice) := do
  let format ← formatOf path
  let text ← (read.text path).mapError .file
  let result ← parse target format text
  return (result, [.loadedFile path format.name])

end Document

end EdgeGuard
