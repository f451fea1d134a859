import EdgeGuard.Yaml.Token

/-!
# `EdgeGuard.Yaml.Node`: the document of a YAML text

A document is a tree of scalars, sequences, mappings and references to nodes with names. A text
holds at most one document.

* `Yaml.Document.ofTokens` builds the document of tokens.
* `Yaml.Document.ofText` gives the document of a text, if there is one.
-/

set_option autoImplicit false

namespace EdgeGuard.Yaml

/-- A node of a document. A tag is kept as it stands after its handle was replaced. -/
inductive Node where
  | scalar (tag : Option Tag) (style : Style) (text : String)
  | sequence (tag : Option Tag) (items : List Node)
  | mapping (tag : Option Tag) (pairs : List (Node × Node))
  /-- A reference to the node of a number. -/
  | reference (number : Nat)
deriving Inhabited

namespace Node

/-- The empty scalar that stands where a node is left out. -/
def absent : Node := .scalar none .plain ""

mutual

/-- How many scalars, references, and starts and ends of collections a node is made of. -/
def size : Node → Nat
  | .scalar .. | .reference _ => 1
  | .sequence _ items => sizeItems items + 2
  | .mapping _ pairs => sizePairs pairs + 2

def sizeItems : List Node → Nat
  | [] => 0
  | node :: rest => size node + sizeItems rest

def sizePairs : List (Node × Node) → Nat
  | [] => 0
  | (key, value) :: rest => size key + size value + sizePairs rest

end

end Node

/-- The named nodes of a document. A name is given the number of names known before, also when it
was known already; so the next new name is given the same number, and a reference of that number
goes to the node that got it last. -/
structure Names where
  /-- The numbers of the names. -/
  numbers : List (List Char × Nat)
  /-- The numbers that nodes were given, the last one first. -/
  given : List Nat
  /-- The nodes, each with how many nodes were given a number before it. -/
  nodes : List (Nat × Node)

namespace Names

/-- No names. -/
def empty : Names := ⟨[], [], []⟩

/-- Gives a name a number, for the next node. -/
def add (names : Names) (name : List Char) : Names :=
  let number := names.numbers.length
  { names with
    numbers :=
      if names.numbers.any (·.1 == name) then
        names.numbers.map fun pair => if pair.1 == name then (name, number) else pair
      else names.numbers ++ [(name, number)]
    given := number :: names.given }

/-- Notes the node that was given a number after `before` others. -/
def setNode (names : Names) (before : Nat) (node : Node) : Names :=
  { names with nodes := (before, node) :: names.nodes }

/-- The node that got a number last. -/
def node? (names : Names) (number : Nat) : Option Node :=
  let later := names.given.takeWhile (· != number)
  names.nodes.lookup (names.given.length - later.length - 1)

end Names

/-- How far tokens were built into nodes. -/
structure Builder where
  /-- The tokens ahead. -/
  tokens : List Token
  names : Names
  /-- What the handles of tags stand for. -/
  handles : List (List Char × Tag)

/-- What a step of building gives. -/
abbrev Build (α : Type) := Builder → Except Fault (α × Builder)

namespace Builder

/-- The handles that need no directive. -/
def usualHandles : List (List Char × Tag) :=
  [(['!'], .lone), (['!', '!'], .ofString Tag.coreStart)]

/-- The builder at the start of a document. -/
def start (tokens : List Token) : Builder := ⟨tokens, .empty, usualHandles⟩

/-- The token ahead. -/
def peek (b : Builder) : Option Token := b.tokens.head?

/-- The builder behind the token ahead. -/
def next (b : Builder) : Builder := { b with tokens := b.tokens.drop 1 }

/-- Whether one of these tokens is ahead, or no token at all. -/
def seesOneOf (b : Builder) (tokens : List Token) : Bool :=
  match b.peek with
  | none => true
  | some token => tokens.contains token

end Builder

/-- The name and the tag before a node. -/
structure Properties where
  anchor : Option (List Char)
  tag : Option TagText

namespace Properties

/-- Whether neither is there. -/
def isEmpty (properties : Properties) : Bool :=
  properties.anchor.isNone && properties.tag.isNone

/-- Reads an anchor and a tag, in either order. -/
def read (b : Builder) : Properties × Builder :=
  match b.peek with
  | some (.anchor name) =>
    match b.next.peek with
    | some (.tag text) => (⟨some name, some text⟩, b.next.next)
    | _ => (⟨some name, none⟩, b.next)
  | some (.tag text) =>
    match b.next.peek with
    | some (.anchor name) => (⟨some name, some text⟩, b.next.next)
    | _ => (⟨none, some text⟩, b.next)
  | _ => (⟨none, none⟩, b)

/-- The tag with its handle replaced by what it stands for. -/
def resolveTag (properties : Properties) (b : Builder) : Except Fault (Option Tag) :=
  match properties.tag with
  | none => .ok none
  | some ⟨[], suffix⟩ => .ok (some suffix)
  | some ⟨handle, suffix⟩ =>
    match b.handles.lookup handle with
    | some value => .ok (some (value.append suffix))
    | none => .error .unknownHandle

end Properties

namespace Node

/-- Builds a node that may have a name. -/
def named (properties : Properties) (content : Build Node) : Build Node := fun b =>
  match properties.anchor with
  | some name => do
    let before := b.names.given.length
    let (node, b) ← content { b with names := b.names.add name }
    return (node, { b with names := b.names.setNode before node })
  | none => content b

/-- The reference to the node of a name. -/
def referenceTo (name : List Char) : Build Node := fun b =>
  match b.names.numbers.lookup name with
  | some number => .ok (.reference number, b.next)
  | none => .error .unknownAnchor

mutual

/-- Builds the node ahead. In a block, blocks may start, and where a key or value of a mapping
stands, a sequence may start without more indentation. -/
def build (inBlock indentless : Bool) : (fuel : Nat) → Build Node
  | 0, _ => .error .noNode
  | fuel + 1, b =>
    match b.peek with
    | some (.alias name) => referenceTo name b
    | _ => do
      let (properties, b) := Properties.read b
      let tag ← properties.resolveTag b
      named properties (buildContent inBlock indentless properties tag fuel) b

/-- Builds the node ahead behind its anchor and tag. -/
def buildContent (inBlock indentless : Bool) (properties : Properties) (tag : Option Tag) :
    (fuel : Nat) → Build Node
  | 0, _ => .error .noNode
  | fuel + 1, b =>
    match b.peek with
    | some (.scalar text style) =>
      .ok (.scalar tag style (String.ofList text), b.next)
    | some .flowSequenceStart => do
      let (items, b) ← flowItems true fuel b.next
      return (.sequence tag items, b)
    | some .flowMappingStart => do
      let (pairs, b) ← flowPairs true fuel b.next
      return (.mapping tag pairs, b)
    | some .blockSequenceStart =>
      if inBlock then do
        let (items, b) ← blockItems fuel b.next
        return (.sequence tag items, b)
      else .error .noNode
    | some .blockMappingStart =>
      if inBlock then do
        let (pairs, b) ← blockPairs fuel b.next
        return (.mapping tag pairs, b)
      else .error .noNode
    | some .blockEntry =>
      if indentless then do
        let (items, b) ← indentlessItems fuel b
        return (.sequence tag items, b)
      else if properties.isEmpty then .error .noNode
      else .ok (.scalar tag .plain "", b)
    | _ =>
      -- A name or tag without content belongs to an empty scalar.
      if properties.isEmpty then .error .noNode
      else .ok (.scalar tag .plain "", b)

/-- Builds the items of a block sequence, up to and with its end. -/
def blockItems : (fuel : Nat) → Build (List Node)
  | 0, _ => .error .noNode
  | fuel + 1, b =>
    match b.peek with
    | some .blockEntry => do
      let (item, b) ←
        if b.next.seesOneOf [.blockEntry, .blockEnd] then .ok (absent, b.next)
        else build true false fuel b.next
      let (items, b) ← blockItems fuel b
      return (item :: items, b)
    | some .blockEnd => .ok ([], b.next)
    | _ => .error .noNode

/-- Builds the items of a sequence without indentation of its own, up to its end. -/
def indentlessItems : (fuel : Nat) → Build (List Node)
  | 0, _ => .error .noNode
  | fuel + 1, b =>
    match b.peek with
    | some .blockEntry => do
      let (item, b) ←
        if b.next.seesOneOf [.blockEntry, .key, .value, .blockEnd] then .ok (absent, b.next)
        else build true false fuel b.next
      let (items, b) ← indentlessItems fuel b
      return (item :: items, b)
    | _ => .ok ([], b)

/-- Builds the pairs of a block mapping, up to and with its end. -/
def blockPairs : (fuel : Nat) → Build (List (Node × Node))
  | 0, _ => .error .noNode
  | fuel + 1, b =>
    match b.peek with
    | some .key => do
      let (key, b) ←
        if b.next.seesOneOf [.key, .value, .blockEnd] then .ok (absent, b.next)
        else build true true fuel b.next
      let (value, b) ←
        if b.peek == some .value then
          if b.next.seesOneOf [.key, .value, .blockEnd] then .ok (absent, b.next)
          else build true true fuel b.next
        else .ok (absent, b)
      let (pairs, b) ← blockPairs fuel b
      return ((key, value) :: pairs, b)
    | some .blockEnd => .ok ([], b.next)
    | _ => .error .noNode

/-- Builds the items of a flow sequence, up to and with its bracket. -/
def flowItems (first : Bool) : (fuel : Nat) → Build (List Node)
  | 0, _ => .error .noNode
  | fuel + 1, b =>
    if b.peek == some .flowSequenceEnd then .ok ([], b.next)
    else do
      let b ←
        if first then .ok b
        else if b.peek == some .flowEntry then .ok b.next
        else .error .noNode
      -- A comma may stand before the bracket.
      if b.peek == some .flowSequenceEnd then return ([], b.next)
      let (item, b) ←
        if b.peek == some .key then do
          let (pair, b) ← flowSinglePair fuel b.next
          Except.ok (.mapping none [pair], b)
        else build false false fuel b
      let (items, b) ← flowItems false fuel b
      return (item :: items, b)

/-- Builds the pair of a mapping that is an item of a flow sequence. -/
def flowSinglePair : (fuel : Nat) → Build (Node × Node)
  | 0, _ => .error .noNode
  | fuel + 1, b => do
    -- When the key is left out, the token in its place is passed over, whatever it is.
    let (key, b) ←
      if b.seesOneOf [.value, .flowEntry, .flowSequenceEnd] then .ok (absent, b.next)
      else build false false fuel b
    let (value, b) ←
      if b.peek == some .value then
        if b.next.seesOneOf [.flowEntry, .flowSequenceEnd] then .ok (absent, b.next)
        else build false false fuel b.next
      else .ok (absent, b)
    return ((key, value), b)

/-- Builds the pairs of a flow mapping, up to and with its brace. -/
def flowPairs (first : Bool) : (fuel : Nat) → Build (List (Node × Node))
  | 0, _ => .error .noNode
  | fuel + 1, b =>
    if b.peek == some .flowMappingEnd then .ok ([], b.next)
    else do
      let b ←
        if first then .ok b
        else if b.peek == some .flowEntry then .ok b.next
        else .error .noNode
      if b.peek == some .flowMappingEnd then return ([], b.next)
      let (pair, b) ←
        if b.peek == some .key then do
          let (key, b) ←
            if b.next.seesOneOf [.value, .flowEntry, .flowMappingEnd] then
              .ok (absent, b.next)
            else build false false fuel b.next
          let (value, b) ←
            if b.peek == some .value then
              if b.next.seesOneOf [.flowEntry, .flowMappingEnd] then .ok (absent, b.next)
              else build false false fuel b.next
            else .ok (absent, b)
          Except.ok ((key, value), b)
        else do
          let (key, b) ← build false false fuel b
          Except.ok ((key, absent), b)
      let (pairs, b) ← flowPairs false fuel b
      return (pair :: pairs, b)

end

end Node

/-! ### Documents -/

/-- Reads the directives before a document. Of one kind or handle there may be only one. -/
def readDirectives (versioned : Bool) (handles : List (List Char × Tag)) :
    List Token → Except Fault (Bool × List (List Char × Tag) × List Token)
  | .version major minor :: rest =>
    if versioned || major ≠ 1 || !(minor == 1 || minor == 2) then .error .directive
    else readDirectives true handles rest
  | .handle name value :: rest =>
    if handles.any (·.1 == name) then .error .directive
    else readDirectives versioned (handles ++ [(name, value)]) rest
  | rest => .ok (versioned || !handles.isEmpty, handles, rest)

/-- A document: its node, and the nodes that references go to. -/
structure Document where
  root : Node
  names : Names

/-- The document that the tokens make up, if they make up any. -/
def Document.ofTokens (tokens : List Token) : Except Fault (Option Document) :=
  if tokens.isEmpty then .ok none
  else do
    let (directives, handles, rest) ← readDirectives false [] tokens
    let explicit := rest.head? == some .documentStart
    if directives && !explicit then .error .noNode
    let b : Builder :=
      { Builder.start (if explicit then rest.drop 1 else rest) with
        handles := handles ++ Builder.usualHandles }
    let empty := explicit && (b.tokens.isEmpty || b.seesOneOf [.documentStart, .documentEnd]
      || match b.peek with
        | some (.version ..) | some (.handle ..) => true
        | _ => false)
    let (root, b) ←
      if empty then .ok (Node.absent, b)
      -- At most three steps are taken before a token is passed over.
      else Node.build true false (3 * tokens.length + 3) b
    if !(b.tokens.dropWhile (· == .documentEnd)).isEmpty then .error .severalDocuments
    return some ⟨root, b.names⟩

/-- The document of a text. -/
def Document.ofText (text : String) : Except Fault (Option Document) := do
  Document.ofTokens (← tokens text.toList)

end EdgeGuard.Yaml
