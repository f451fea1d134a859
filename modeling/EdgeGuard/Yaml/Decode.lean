import EdgeGuard.Edge.Decode
import EdgeGuard.Yaml.Node
import EdgeGuard.Yaml.Resolve

/-!
# `EdgeGuard.Yaml.Decode`: values, variables and edges from YAML documents

The names in a mapping are scalars, taken by their text; of two pairs with one name the last is
kept. Where a text is asked for, any scalar will do. Variables and edges are mappings. A text
without a document counts as null, as no variables or as no edges.

* `Yaml.valueOf`, `Yaml.variablesOf` and `Yaml.edgesOf` decode the document of a text.
-/

set_option autoImplicit false

namespace EdgeGuard.Yaml

/-! ### References -/

/-- How deep the nodes of a document may nest. -/
def depthLimit : Nat := 128

/-- How many references may be followed for each part of a document. -/
def referencesPerPart : Nat := 100

/-- A decoder: it counts the references that it followed. -/
abbrev Decoder (α : Type) := StateT Nat (Except Fault) α

namespace Document

/-- The node that a node stands for: a reference stands for the node it goes to. -/
def follow (doc : Document) (node : Node) : Decoder Node := do
  match node with
  | .reference number =>
    let followed ← get
    if referencesPerPart * doc.root.size ≤ followed then throw .tooManyRepeats
    set (followed + 1)
    match doc.names.node? number with
    | some target => return target
    | none => throw .unknownAnchor
  | node => return node

/-- The result of a decoder. -/
def decode {α : Type} (doc : Document) (decoder : Node → Decoder α) : Except Fault α :=
  (·.1) <$> decoder doc.root 0

/-! ### Values -/

/-- The text of a scalar. -/
def text (doc : Document) (node : Node) : Decoder String := do
  match ← doc.follow node with
  | .scalar _ _ text => return text
  | _ => throw .shape

/-- The JSON value of a node. -/
def value (doc : Document) : (depth : Nat) → Node → Decoder Json
  | 0, node => do
    match ← doc.follow node with
    | .scalar tag style text => scalarValue tag style text
    | _ => throw .tooDeep
  | depth + 1, node => do
    match ← doc.follow node with
    | .scalar tag style text => scalarValue tag style text
    | .sequence tag items =>
      if tag.any Tag.isOwn then throw .shape
      return .arr (← items.mapM (doc.value depth))
    | .mapping tag pairs =>
      if tag.any Tag.isOwn then throw .shape
      let pairs ← pairs.mapM fun pair => do return (← doc.text pair.1, ← doc.value depth pair.2)
      return .obj (Bindings.ofList pairs)
    | .reference _ => throw .unknownAnchor

/-- The values that the pairs of a mapping bind. An empty plain scalar binds none. -/
def bindings (doc : Document) (node : Node) : Decoder (Bindings Json) := do
  match ← doc.follow node with
  | .mapping _ pairs =>
    let pairs ← pairs.mapM fun pair => do
      return (← doc.text pair.1, ← doc.value (depthLimit - 1) pair.2)
    return Bindings.ofList pairs
  | .scalar _ .plain "" => return []
  | _ => throw .shape

/-! ### Edges -/

/-- The text of a scalar, or none for null. -/
def optionalText (doc : Document) (node : Node) : Decoder (Option String) := do
  match ← doc.follow node with
  | .scalar none .plain text => return if text == "" || isNull text then none else some text
  | .scalar (some tag) .plain text =>
    if tag != .core "null" then return some text
    else if isNull text then return none
    else throw .shape
  | .scalar _ _ text => return some text
  | _ => throw .shape

/-- The truth value of a plain scalar, or of a literal one whose tag asks for a truth value. -/
def truth (doc : Document) (node : Node) : Decoder Bool := do
  match ← doc.follow node with
  | .scalar tag style text =>
    let mayBe := style == .plain || (style == .literal && tag == some (.core "bool"))
    match if mayBe then bool? text else none with
    | some value => return value
    | none => throw .shape
  | _ => throw .shape

/-- The draft of an edge with a field taken from a node. -/
def setField (doc : Document) (draft : Edge.Draft) (field : EdgeField) (node : Node) :
    Decoder Edge.Draft :=
  match field with
  | .id => do return { draft with id := some (← doc.text node) }
  | .source => do return { draft with source := some (← doc.text node) }
  | .target => do return { draft with target := some (← doc.text node) }
  | .label => do return { draft with label := some (← doc.optionalText node) }
  | .isConditional => do return { draft with isConditional := some (← doc.truth node) }
  | .condition => do return { draft with condition := some (← doc.optionalText node) }

/-- The draft of an edge with the pairs of a mapping taken for fields. No field may stand twice. -/
def setPairs (doc : Document) (draft : Edge.Draft) : List (Node × Node) → Decoder Edge.Draft
  | [] => return draft
  | (key, node) :: rest => do
    match EdgeField.ofName? (← doc.text key) with
    | some field =>
      if draft.has field then throw .shape
      doc.setPairs (← doc.setField draft field node) rest
    | none => doc.setPairs draft rest

/-- The edge of which a draft holds everything needed. -/
def finish (draft : Edge.Draft) : Decoder Edge :=
  match draft.finish Edge.missingField with
  | .ok edge => return edge
  | .error _ => throw .shape

/-- The edge that a mapping stands for. -/
def edge (doc : Document) (node : Node) : Decoder Edge := do
  match ← doc.follow node with
  | .mapping _ pairs => finish (← doc.setPairs .blank pairs)
  | _ => throw .shape

/-- The edges that the items of a sequence stand for. An empty plain scalar stands for none. -/
def edges (doc : Document) (node : Node) : Decoder (List Edge) := do
  match ← doc.follow node with
  | .sequence _ items => items.mapM doc.edge
  | .scalar _ .plain "" => return []
  | _ => throw .shape

end Document

/-! ### Texts -/

/-- The value of a text. -/
def valueOf (text : String) : Except Fault Json := do
  match ← Document.ofText text with
  | some doc => doc.decode (doc.value depthLimit)
  | none => return .null

/-- The variables of a text. -/
def variablesOf (text : String) : Except Fault (Bindings Json) := do
  match ← Document.ofText text with
  | some doc => doc.decode doc.bindings
  | none => return []

/-- The edges of a text. -/
def edgesOf (text : String) : Except Fault (List Edge) := do
  match ← Document.ofText text with
  | some doc => doc.decode doc.edges
  | none => return []

end EdgeGuard.Yaml
