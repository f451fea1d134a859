import EdgeGuard.Yaml.Scalar
import EdgeGuard.Yaml.Tag

/-!
# `EdgeGuard.Yaml.Token`: the tokens of a YAML text

Tokens are the marks and scalars of a text together with the starts and ends of blocks, which
only indentation shows. A key of one line is known as a key only when its colon is met; its token
is then put before the tokens of the key.

* `Yaml.tokens` gives the tokens of a text.
-/

set_option autoImplicit false

namespace EdgeGuard.Yaml

/-- A tag as it is written: a handle and what follows it. -/
structure TagText where
  handle : List Char
  suffix : Tag
deriving DecidableEq

/-- A token. -/
inductive Token where
  | version (major minor : Nat)
  | handle (name : List Char) (value : Tag)
  | documentStart
  | documentEnd
  | blockSequenceStart
  | blockMappingStart
  | blockEnd
  | flowSequenceStart
  | flowSequenceEnd
  | flowMappingStart
  | flowMappingEnd
  | flowEntry
  | blockEntry
  | key
  | value
  | alias (name : List Char)
  | anchor (name : List Char)
  | tag (text : TagText)
  | scalar (text : List Char) (style : Style)
deriving DecidableEq

/-- A place at which a key may have started. -/
structure KeyStart where
  /-- How many tokens stand before it. -/
  number : Nat
  line : Nat
  column : Nat
  index : Nat
  /-- Whether nothing but a key may stand there. -/
  required : Bool

/-- How far a text was split into tokens. -/
structure Scanner where
  cur : Cursor
  /-- The tokens so far, the last one first. -/
  tokens : List Token
  /-- The columns of the open blocks, the innermost first. -/
  indents : List Nat
  /-- Whether a key may start here. -/
  keyAllowed : Bool
  /-- The key that may have started in the block. -/
  blockKey : Option KeyStart
  /-- The keys that may have started in the open flow collections, the innermost first. -/
  flowKeys : List (Option KeyStart)

namespace Scanner

/-- The start of a text. -/
def start (text : List Char) : Scanner := ⟨.start text, [], [], true, none, []⟩

/-- Whether a flow collection is open. -/
def inFlow (s : Scanner) : Bool := !s.flowKeys.isEmpty

/-- The column of the innermost block. -/
def indent? (s : Scanner) : Option Nat := s.indents.head?

/-- The first column inside the innermost block. -/
def inner (s : Scanner) : Nat := (s.indent?.map (· + 1)).getD 0

/-- Adds a token. -/
def push (s : Scanner) (token : Token) : Scanner := { s with tokens := token :: s.tokens }

/-- Adds a token behind the first `number` tokens. -/
def insert (s : Scanner) (number : Nat) (token : Token) : Scanner :=
  -- The tokens are kept in reverse, so the first ones stand at the end.
  let behind := s.tokens.length - number
  { s with tokens := s.tokens.take behind ++ token :: s.tokens.drop behind }

/-- The key that may have started at the present level. -/
def possibleKey (s : Scanner) : Option KeyStart :=
  match s.flowKeys with
  | [] => s.blockKey
  | possible :: _ => possible

/-- Changes the key that may have started at the present level. -/
def setKey (s : Scanner) (possible : Option KeyStart) : Scanner :=
  match s.flowKeys with
  | [] => { s with blockKey := possible }
  | _ :: outer => { s with flowKeys := possible :: outer }

/-- Gives up the key that may have started. A required one must not be given up. -/
def dropKey (s : Scanner) : Except Fault Scanner :=
  if s.possibleKey.any (·.required) then .error .missingColon else .ok (s.setKey none)

/-- Notes that a key may start with the next token. -/
def saveKey (s : Scanner) : Except Fault Scanner :=
  if s.keyAllowed then do
    -- At the column of the open block only another key of that block can follow.
    let required := !s.inFlow && s.indent? == some s.cur.column
    let s ← s.dropKey
    return s.setKey (some ⟨s.tokens.length, s.cur.line, s.cur.column, s.cur.index, required⟩)
  else .ok s

/-- A key, unless it is out of reach: a key ends on its line and within 1024 bytes. -/
def reachable (s : Scanner) (possible : Option KeyStart) : Except Fault (Option KeyStart) :=
  match possible with
  | none => .ok none
  | some key =>
    if key.line < s.cur.line || key.index + 1024 < s.cur.index then
      if key.required then .error .missingColon else .ok none
    else .ok (some key)

/-- Gives up the keys that are out of reach. -/
def dropStaleKeys (s : Scanner) : Except Fault Scanner := do
  let blockKey ← s.reachable s.blockKey
  let flowKeys ← s.flowKeys.mapM s.reachable
  return { s with blockKey := blockKey, flowKeys := flowKeys }

/-- Opens a block at a column, if none that deep is open. Its start is put behind the first
`number` tokens. -/
def openBlock (s : Scanner) (column number : Nat) (token : Token) : Scanner :=
  if s.inFlow then s
  else if s.indent?.all (· < column) then
    { s.insert number token with indents := column :: s.indents }
  else s

/-- Closes the blocks that are indented further than a column, or all of them. -/
def closeBlocks (s : Scanner) (column : Option Nat) : Scanner :=
  if s.inFlow then s
  else
    let deeper (indent : Nat) : Bool := (column.map fun n => decide (n < indent)).getD true
    let count := (s.indents.takeWhile deeper).length
    { s with
      indents := s.indents.drop count
      tokens := List.replicate count .blockEnd ++ s.tokens }

/-- Adds a token of one character. -/
def mark (s : Scanner) (token : Token) : Scanner := { s with cur := s.cur.next }.push token

/-! ### What stands between tokens -/

/-- Passes over blanks, comments and line breaks. A tab may stand where no key may start. A byte
order mark at the start of a line takes up a column of it. -/
def skipGap : (fuel : Nat) → Scanner → Scanner
  | 0, s => s
  | fuel + 1, s =>
    let cur := if s.cur.column == 0 && s.cur.sees '\ufeff' then s.cur.next else s.cur
    let tabs := s.inFlow || !s.keyAllowed
    let cur := (cur.skipWhile fun c => c == ' ' || (tabs && c == '\t')).skipComment
    if cur.seesBreak then
      skipGap fuel { s with cur := cur.nextLine, keyAllowed := s.keyAllowed || !s.inFlow }
    else { s with cur := cur }

/-! ### Directives -/

/-- Reads a number of at most nine digits. -/
def versionNumber (cur : Cursor) : Except Fault (Nat × Cursor) :=
  let (ds, behind) := cur.takeWhile Char.isDigit
  if ds.isEmpty || 9 < ds.length then .error .directive
  else .ok (ds.foldl (fun n c => n * 10 + (c.toNat - 48)) 0, behind)

/-- The characters of a tag or of the text for a handle. Inside `<` and `>` flow indicators may
stand too. -/
def isTagChar (verbatim : Bool) (c : Char) : Bool :=
  isWordChar c || c ∈ [';', '/', '?', ':', '@', '&', '=', '+', '$', '.', '!', '~', '*', '\'', '(', ')']
    || (verbatim && c ∈ [',', '[', ']'])

/-- Reads a byte written as a percent sign and two hexadecimal digits. -/
def percentByte (cur : Cursor) : Except Fault (UInt8 × Cursor) :=
  if cur.sees '%' then do
    let (value, cur) ← hexDigits 2 0 cur.next
    return (value.toUInt8, cur)
  else .error .brokenToken

/-- How many bytes follow the first byte of a character, as its high bits say. -/
def trailingCount? (first : UInt8) : Option Nat :=
  if first.toNat < 0x80 then some 0
  else if first.toNat / 0x20 == 6 then some 1
  else if first.toNat / 0x10 == 14 then some 2
  else if first.toNat / 0x08 == 30 then some 3
  else none

/-- Reads so many bytes that follow the first byte of a character. The bytes are given in
reverse. -/
def trailingBytes : (count : Nat) → List UInt8 → Cursor → Except Fault (List UInt8 × Cursor)
  | 0, bytes, cur => .ok (bytes, cur)
  | count + 1, bytes, cur => do
    let (byte, cur) ← percentByte cur
    if byte.toNat / 0x40 != 2 then .error .brokenToken
    trailingBytes count (byte :: bytes) cur

/-- Reads the bytes of a character in front of the bytes so far. Only their high bits are looked at,
so they need not be the encoding of a character. -/
def percentChar (bytes : List UInt8) (cur : Cursor) : Except Fault (List UInt8 × Cursor) := do
  let (first, behind) ← percentByte cur
  match trailingCount? first with
  | some count => trailingBytes count (first :: bytes) behind
  | none => .error .brokenToken

/-- Reads the bytes of a tag. They are given in reverse. -/
def tagBytes (verbatim : Bool) :
    (fuel : Nat) → List UInt8 → Cursor → Except Fault (List UInt8 × Cursor)
  | 0, bytes, cur => .ok (bytes, cur)
  | fuel + 1, bytes, cur =>
    match cur.peek with
    | none => .ok (bytes, cur)
    | some c =>
      if c == '%' then do
        let (bytes, cur) ← percentChar bytes cur
        tagBytes verbatim fuel bytes cur
      else if isTagChar verbatim c then tagBytes verbatim fuel (c.toNat.toUInt8 :: bytes) cur.next
      else .ok (bytes, cur)

/-- Reads a tag behind its first characters `head`, which count without their exclamation mark. -/
def tagAfter (verbatim : Bool) (head : List Char) (cur : Cursor) : Except Fault (Tag × Cursor) := do
  let (bytes, behind) ← tagBytes verbatim (cur.rest.length + 1) [] cur
  if head.isEmpty && bytes.isEmpty then .error .brokenToken
  return (.ofBytes (Tag.bytesOf (head.drop 1) ++ bytes.reverse), behind)

/-- Reads a handle: an exclamation mark, or a word between two. -/
def tagHandle (cur : Cursor) : Except Fault (List Char × Cursor) :=
  if cur.sees '!' then
    let (word, cur) := cur.next.takeWhile isWordChar
    if cur.sees '!' then .ok ('!' :: (word ++ ['!']), cur.next) else .ok ('!' :: word, cur)
  else .error .brokenToken

/-- Reads the version of a document. -/
def versionDirective (cur : Cursor) : Except Fault (Token × Cursor) := do
  let (major, cur) ← versionNumber (cur.skipWhile isBlank)
  if !cur.sees '.' then .error .directive
  let (minor, cur) ← versionNumber cur.next
  return (.version major minor, cur)

/-- Reads a handle and what it stands for. -/
def handleDirective (cur : Cursor) : Except Fault (Token × Cursor) := do
  let (name, cur) ← tagHandle (cur.skipWhile isBlank)
  if name != ['!'] && name.getLast? != some '!' then .error .directive
  if !cur.seesBlank then .error .directive
  let (value, cur) ← tagAfter true [] (cur.skipWhile isBlank)
  if !cur.seesGap then .error .directive
  return (.handle name value, cur)

/-- Reads a directive. -/
def directive (s : Scanner) : Except Fault Scanner := do
  let s := s.closeBlocks none
  let s ← s.dropKey
  let (name, cur) := s.cur.next.takeWhile isWordChar
  if name.isEmpty || !cur.seesGap then .error .directive
  let (token, cur) ←
    if name == ['Y', 'A', 'M', 'L'] then versionDirective cur
    else if name == ['T', 'A', 'G'] then handleDirective cur
    else .error .directive
  let cur := (cur.skipWhile isBlank).skipComment
  if !cur.seesLineEnd then .error .directive
  return { s with cur := cur.nextLine, keyAllowed := false }.push token

/-! ### Tokens -/

/-- Reads the mark that starts or ends a document. -/
def documentMark (s : Scanner) (token : Token) : Except Fault Scanner := do
  let s ← (s.closeBlocks none).dropKey
  return { s with cur := s.cur.advance 3, keyAllowed := false }.push token

/-- Reads the bracket that opens a flow collection. -/
def openFlow (s : Scanner) (token : Token) : Except Fault Scanner := do
  let s ← s.saveKey
  return { s with flowKeys := none :: s.flowKeys, keyAllowed := true }.mark token

/-- Reads the bracket that closes a flow collection. -/
def closeFlow (s : Scanner) (token : Token) : Except Fault Scanner := do
  let s ← s.dropKey
  return { s with flowKeys := s.flowKeys.drop 1, keyAllowed := false }.mark token

/-- Reads the comma of a flow collection. -/
def flowEntry (s : Scanner) : Except Fault Scanner := do
  let s ← s.dropKey
  return { s with keyAllowed := true }.mark .flowEntry

/-- Reads the hyphen of a block sequence. -/
def blockEntry (s : Scanner) : Except Fault Scanner := do
  if !s.inFlow && !s.keyAllowed then .error .misplaced
  let s ← (s.openBlock s.cur.column s.tokens.length .blockSequenceStart).dropKey
  return { s with keyAllowed := true }.mark .blockEntry

/-- Reads the question mark before a key. -/
def explicitKey (s : Scanner) : Except Fault Scanner := do
  if !s.inFlow && !s.keyAllowed then .error .misplaced
  let s ← (s.openBlock s.cur.column s.tokens.length .blockMappingStart).dropKey
  return { s with keyAllowed := !s.inFlow }.mark .key

/-- Reads the colon before a value. When a key may have started, it did. -/
def mappingValue (s : Scanner) : Except Fault Scanner :=
  match s.possibleKey with
  | some key =>
    -- The key and the start of its block go before the tokens of the key.
    let s := (s.insert key.number .key).openBlock key.column key.number .blockMappingStart
    .ok ({ s.setKey none with keyAllowed := false }.mark .value)
  | none => do
    -- The key stands behind a question mark or is left out.
    if !s.inFlow && !s.keyAllowed then .error .misplaced
    let s := s.openBlock s.cur.column s.tokens.length .blockMappingStart
    return { s with keyAllowed := !s.inFlow }.mark .value

/-- Whether a character may follow the name of an anchor. -/
def endsName (c : Char) : Bool :=
  isBlank c || isBreak c || c ∈ ['?', ':', ',', ']', '\x7d', '%', '@', '\x60']

/-- Reads the name of an anchor or of a reference to one. -/
def anchorName (s : Scanner) (token : List Char → Token) : Except Fault Scanner := do
  let s ← s.saveKey
  let (name, cur) := s.cur.next.takeWhile isWordChar
  if name.isEmpty || !(cur.peek.all endsName) then .error .brokenToken
  return { s with cur := cur, keyAllowed := false }.push (token name)

/-- Reads a tag behind the place where it starts. -/
def tagAhead (cur : Cursor) : Except Fault (TagText × Cursor) :=
  if cur.peekAt 1 == some '<' then do
    let (suffix, cur) ← tagAfter true [] (cur.advance 2)
    if !cur.sees '>' then .error .brokenToken
    return (⟨[], suffix⟩, cur.next)
  else do
    let (handle, behind) ← tagHandle cur
    if 1 < handle.length && handle.getLast? == some '!' then
      let (suffix, cur) ← tagAfter false [] behind
      return (⟨handle, suffix⟩, cur)
    else
      let (suffix, cur) ← tagAfter false handle behind
      if suffix.isEmpty then return (⟨[], .lone⟩, cur) else return (⟨['!'], suffix⟩, cur)

/-- Reads a tag. -/
def tag (s : Scanner) : Except Fault Scanner := do
  let s ← s.saveKey
  let (text, cur) ← tagAhead s.cur
  if !(cur.seesGap || (s.inFlow && cur.sees ',')) then .error .brokenToken
  return { s with cur := cur, keyAllowed := false }.push (.tag text)

/-- Reads a block scalar. -/
def blockScalar (s : Scanner) (literal : Bool) : Except Fault Scanner := do
  let s ← s.dropKey
  let (text, cur) ← block literal s.indent? s.cur
  return { s with cur := cur, keyAllowed := true }.push
    (.scalar text (if literal then .literal else .folded))

/-- Reads a quoted scalar. -/
def quotedScalar (s : Scanner) (single : Bool) : Except Fault Scanner := do
  let s ← s.saveKey
  let (text, cur) ← quoted single s.cur
  return { s with cur := cur, keyAllowed := false }.push (.scalar text .quoted)

/-- Reads a plain scalar. -/
def plainScalar (s : Scanner) : Except Fault Scanner := do
  let s ← s.saveKey
  -- A scalar that ends before a new line leaves the cursor there, where a key may start.
  let (text, hasBreak, cur) ← plain s.inFlow s.inner s.cur
  return { s with cur := cur, keyAllowed := hasBreak }.push (.scalar text .plain)

/-- Whether a plain scalar may start with the character ahead. -/
def startsPlain (s : Scanner) (c : Char) : Bool :=
  !(c ∈ ['-', '?', ':', ',', '[', ']', '\x7b', '\x7d', '#', '&', '*', '!', '|', '>', '\'', '"', '%',
      '@', '\x60'] || isBlank c || isBreak c)
    || (c == '-' && !(s.cur.peekAt 1).any isBlank)
    || (!s.inFlow && (c == '?' || c == ':') && !s.cur.seesGapAt 1)

/-- Reads the token that starts with the character ahead. -/
def token (s : Scanner) (c : Char) : Except Fault Scanner :=
  let gapFollows := s.cur.seesGapAt 1
  -- Directives and document marks start a line; they come before all else.
  if s.cur.column == 0 && c == '%' then s.directive
  else if s.cur.seesDocumentMark then
    s.documentMark (if c == '-' then .documentStart else .documentEnd)
  else if c == '[' then s.openFlow .flowSequenceStart
  else if c == '\x7b' then s.openFlow .flowMappingStart
  else if c == ']' then s.closeFlow .flowSequenceEnd
  else if c == '\x7d' then s.closeFlow .flowMappingEnd
  else if c == ',' then s.flowEntry
  else if c == '-' && gapFollows then s.blockEntry
  else if c == '?' && (s.inFlow || gapFollows) then s.explicitKey
  else if c == ':' && (s.inFlow || gapFollows) then s.mappingValue
  else if c == '*' then s.anchorName .alias
  else if c == '&' then s.anchorName .anchor
  else if c == '!' then s.tag
  else if c == '|' && !s.inFlow then s.blockScalar true
  else if c == '>' && !s.inFlow then s.blockScalar false
  else if c == '\'' then s.quotedScalar true
  else if c == '"' then s.quotedScalar false
  else if s.startsPlain c then s.plainScalar
  else .error .unknownToken

/-- Reads tokens up to the end of the text. -/
def run : (fuel : Nat) → Scanner → Except Fault Scanner
  | 0, _ => .error .unknownToken
  | fuel + 1, s => do
    -- Every token takes at least one character, so the length of the text is fuel enough.
    let s ← (s.skipGap (s.cur.rest.length + 1)).dropStaleKeys
    match s.cur.peek with
    | none => (s.closeBlocks none).dropKey
    | some c => do
      let s ← (s.closeBlocks (some s.cur.column)).token c
      run fuel s

end Scanner

/-- The tokens of a text. -/
def tokens (text : List Char) : Except Fault (List Token) := do
  if !text.all isAllowed then .error .forbiddenCharacter
  let s ← Scanner.run (text.length + 1) (.start text)
  return s.tokens.reverse

end EdgeGuard.Yaml
