import EdgeGuard.Yaml.Cursor

/-!
# `EdgeGuard.Yaml.Scalar`: the text of a scalar

A scalar is written plainly, in quotes, or as a block of lines. Between its parts stand gaps: a gap
on one line keeps its blanks, a gap over lines is folded into a space or into the line breaks
behind the first.

* `Yaml.plain`, `Yaml.quoted` and `Yaml.block` read a scalar and give its text.
-/

set_option autoImplicit false

namespace EdgeGuard.Yaml

/-- How a scalar is written. -/
inductive Style where
  | plain
  | quoted
  /-- As a block that keeps its line breaks. -/
  | literal
  /-- As a block whose lines are joined. -/
  | folded
deriving DecidableEq

/-! ### Gaps -/

/-- What stands between two parts of a scalar. -/
structure Gap where
  /-- The blanks of a gap on one line. -/
  blanks : List Char
  /-- The first line break of a gap over lines. It is empty when it was escaped. -/
  leading : Option (List Char)
  /-- The line breaks behind the first. -/
  trailing : List Char

namespace Gap

/-- The gap of nothing. -/
def none : Gap := ⟨[], .none, []⟩

/-- The gap that starts with an escaped line break. -/
def escaped : Gap := ⟨[], some [], []⟩

/-- Whether a line break is in the gap. -/
def hasBreak (gap : Gap) : Bool := gap.leading.isSome

/-- What a gap becomes in the text. -/
def text (gap : Gap) : List Char :=
  match gap.leading with
  | .none => gap.blanks
  | some leading =>
    if leading == ['\n'] then (if gap.trailing.isEmpty then [' '] else gap.trailing)
    else leading ++ gap.trailing

/-- The gap with a line break behind it. -/
def addBreak (gap : Gap) (text : List Char) : Gap :=
  match gap.leading with
  | .none => ⟨[], some text, []⟩
  | some leading => ⟨[], some leading, gap.trailing ++ text⟩

/-- Reads on through blanks and line breaks. A tab at the start of a line may not stand before
the column `limit`. -/
def scan (limit : Nat) : (fuel : Nat) → Gap → Cursor → Except Fault (Gap × Cursor)
  | 0, gap, cur => .ok (gap, cur)
  | fuel + 1, gap, cur =>
    match cur.peek with
    | .none => .ok (gap, cur)
    | some c =>
      if isBlank c then
        if gap.hasBreak then
          -- Blanks at the start of a line are indentation and no text.
          if c == '\t' && cur.column < limit then .error .tab
          else scan limit fuel gap cur.next
        else scan limit fuel { gap with blanks := gap.blanks ++ [c] } cur.next
      else if isBreak c then scan limit fuel (gap.addBreak cur.breakText) cur.nextLine
      else .ok (gap, cur)

end Gap

/-! ### Plain scalars -/

/-- Whether the characters ahead end a plain scalar: a colon before a gap, and in a flow
collection its brackets and commas. -/
def endsPlain (flow : Bool) (cur : Cursor) : Bool :=
  (cur.sees ':' && cur.seesGapAt 1) || (flow && cur.peek.any isFlowIndicator)

/-- Whether a colon is ahead that may not stand in a flow collection. -/
def badColon (flow : Bool) (cur : Cursor) : Bool :=
  flow && cur.sees ':' && (cur.peekAt 1).any fun c => isFlowIndicator c || c == '?'

/-- Reads the characters of a plain scalar up to the next gap or to its end. They are given in
reverse. -/
def plainPart (flow : Bool) : (fuel : Nat) → List Char → Cursor → Except Fault (List Char × Cursor)
  | 0, part, cur => .ok (part, cur)
  | fuel + 1, part, cur =>
    match cur.peek with
    | none => .ok (part, cur)
    | some c =>
      if isBlank c || isBreak c then .ok (part, cur)
      else if badColon flow cur then .error .brokenToken
      else if endsPlain flow cur then .ok (part, cur)
      else plainPart flow fuel (c :: part) cur.next

/-- Reads the parts of a plain scalar behind a gap. The text so far is given in reverse. -/
def plainParts (flow : Bool) (indent : Nat) :
    (fuel : Nat) → Gap → List Char → Cursor → Except Fault (List Char × Bool × Cursor)
  | 0, gap, text, cur => .ok (text, gap.hasBreak, cur)
  | fuel + 1, gap, text, cur =>
    if cur.seesDocumentMark || cur.sees '#' then .ok (text, gap.hasBreak, cur)
    else do
      let (part, behind) ← plainPart flow cur.rest.length [] cur
      let gap := if part.isEmpty then gap else Gap.none
      let text := if part.isEmpty then text else part ++ text
      if !(behind.seesBlank || behind.seesBreak) then .ok (text, gap.hasBreak, behind)
      else
        let (gap, ahead) ← gap.scan indent behind.rest.length behind
        if !flow && ahead.column < indent then .ok (text, gap.hasBreak, ahead)
        else
          -- The gap counts as text only when another part follows it.
          let follows :=
            !(ahead.seesDocumentMark || ahead.sees '#' || ahead.atEnd || endsPlain flow ahead)
          let text := if follows then gap.text.reverse ++ text else text
          plainParts flow indent fuel gap text ahead

/-- Reads a plain scalar. Says also whether a line break follows it. In a block it goes on over
lines that are indented at least to the column `indent`. -/
def plain (flow : Bool) (indent : Nat) (cur : Cursor) :
    Except Fault (List Char × Bool × Cursor) := do
  let (text, hasBreak, cur) ← plainParts flow indent (cur.rest.length + 1) Gap.none [] cur
  return (text.reverse, hasBreak, cur)

/-! ### Quoted scalars -/

/-- Reads a fixed number of hexadecimal digits. -/
def hexDigits : (count : Nat) → (value : Nat) → Cursor → Except Fault (Nat × Cursor)
  | 0, value, cur => .ok (value, cur)
  | count + 1, value, cur =>
    match cur.peek.bind hexValue? with
    | some digit => hexDigits count (value * 16 + digit) cur.next
    | none => .error .brokenToken

/-- The character for an escape of one letter, and the number of digits of one that gives a code
point. -/
def escapeMeaning (c : Char) : Option (Char ⊕ Nat) :=
  match c with
  | '0' => some (.inl '\x00')
  | 'a' => some (.inl '\x07')
  | 'b' => some (.inl '\x08')
  | 't' | '\t' => some (.inl '\t')
  | 'n' => some (.inl '\n')
  | 'v' => some (.inl '\x0b')
  | 'f' => some (.inl '\x0c')
  | 'r' => some (.inl '\r')
  | 'e' => some (.inl '\x1b')
  | ' ' => some (.inl ' ')
  | '"' => some (.inl '"')
  | '/' => some (.inl '/')
  | '\\' => some (.inl '\\')
  | 'N' => some (.inl '\u0085')
  | '_' => some (.inl '\u00a0')
  | 'L' => some (.inl '\u2028')
  | 'P' => some (.inl '\u2029')
  | 'x' => some (.inr 2)
  | 'u' => some (.inr 4)
  | 'U' => some (.inr 8)
  | _ => none

/-- Reads an escape behind its backslash. -/
def escape (cur : Cursor) : Except Fault (Char × Cursor) :=
  match cur.peek.bind escapeMeaning with
  | none => .error .brokenToken
  | some (.inl c) => .ok (c, cur.next)
  | some (.inr count) => do
    let (value, cur) ← hexDigits count 0 cur.next
    if h : value.isValidChar then return (Char.ofNatAux value h, cur)
    else .error .brokenToken

/-- How a part of a quoted scalar ends. -/
inductive QuotedEnd where
  /-- Before a gap, a quote, or the end of the text. -/
  | before
  /-- Behind an escaped line break. -/
  | escapedBreak

/-- Reads the characters of a quoted scalar up to the next gap or quote. They are given in
reverse. -/
def quotedPart (single : Bool) :
    (fuel : Nat) → List Char → Cursor → Except Fault (List Char × QuotedEnd × Cursor)
  | 0, part, cur => .ok (part, .before, cur)
  | fuel + 1, part, cur =>
    match cur.peek with
    | none => .ok (part, .before, cur)
    | some c =>
      if isBlank c || isBreak c then .ok (part, .before, cur)
      else if single && c == '\'' && cur.peekAt 1 == some '\'' then
        quotedPart single fuel ('\'' :: part) (cur.advance 2)
      else if c == (if single then '\'' else '"') then .ok (part, .before, cur)
      else if !single && c == '\\' then
        if (cur.peekAt 1).any isBreak then .ok (part, .escapedBreak, cur.next.nextLine)
        else do
          let (d, cur) ← escape cur.next
          quotedPart single fuel (d :: part) cur
      else quotedPart single fuel (c :: part) cur.next

/-- Reads the parts of a quoted scalar up to and with its closing quote. The text so far is given
in reverse. -/
def quotedParts (single : Bool) :
    (fuel : Nat) → List Char → Cursor → Except Fault (List Char × Cursor)
  | 0, _, _ => .error .brokenToken
  | fuel + 1, text, cur =>
    if cur.seesDocumentMark || cur.atEnd then .error .brokenToken
    else do
      let (part, finish, cur) ← quotedPart single cur.rest.length [] cur
      let text := part ++ text
      match finish with
      | .escapedBreak =>
        let (gap, cur) ←
          if cur.sees (if single then '\'' else '"') then .ok (Gap.none, cur)
          else Gap.escaped.scan 0 cur.rest.length cur
        quotedParts single fuel (gap.text.reverse ++ text) cur
      | .before =>
        if cur.sees (if single then '\'' else '"') then .ok (text, cur.next)
        else
          let (gap, cur) ← Gap.none.scan 0 cur.rest.length cur
          quotedParts single fuel (gap.text.reverse ++ text) cur

/-- Reads a quoted scalar. -/
def quoted (single : Bool) (cur : Cursor) : Except Fault (List Char × Cursor) := do
  let (text, cur) ← quotedParts single (cur.rest.length + 1) [] cur.next
  return (text.reverse, cur)

/-! ### Blocks -/

/-- What happens to the line breaks at the end of a block. -/
inductive Chomping where
  | clip
  | strip
  | keep

/-- Reads the chomping indicator of a block, if one is ahead. -/
def chomping? (cur : Cursor) : Option (Chomping × Cursor) :=
  if cur.sees '+' then some (.keep, cur.next)
  else if cur.sees '-' then some (.strip, cur.next)
  else none

/-- Reads the indentation indicator of a block, if one is ahead. Zero is none. -/
def increment? (cur : Cursor) : Except Fault (Option Nat × Cursor) :=
  match cur.peek with
  | some c =>
    if c == '0' then .error .brokenToken
    else if c.isDigit then .ok (some (c.toNat - 48), cur.next)
    else .ok (none, cur)
  | none => .ok (none, cur)

/-- Reads the two indicators of a block, in either order. -/
def blockHeader (cur : Cursor) : Except Fault (Chomping × Option Nat × Cursor) :=
  match chomping? cur with
  | some (chomping, cur) => do
    let (increment, cur) ← increment? cur
    return (chomping, increment, cur)
  | none => do
    let (increment, cur) ← increment? cur
    match increment, chomping? cur with
    | some n, some (chomping, cur) => return (chomping, some n, cur)
    | increment, _ => return (.clip, increment, cur)

/-- Reads the spaces of indentation and the empty lines before a line of a block. Without a known
indentation, `widest` is the widest indentation so far. -/
def blockBreaks (indent : Option Nat) :
    (fuel : Nat) → (widest : Nat) → List Char → Cursor → Except Fault (List Char × Nat × Cursor)
  | 0, widest, breaks, cur => .ok (breaks, widest, cur)
  | fuel + 1, widest, breaks, cur =>
    let room := (indent.map (· - cur.column)).getD cur.rest.length
    let spaces := ((cur.rest.take room).takeWhile (· == ' ')).length
    let cur := cur.advance spaces
    let widest := max widest cur.column
    let inside := (indent.map fun n => decide (cur.column < n)).getD true
    if inside && cur.sees '\t' then .error .tab
    else if cur.seesBreak then
      blockBreaks indent fuel widest (breaks ++ cur.breakText) cur.nextLine
    else .ok (breaks, widest, cur)

/-- Reads the lines of a block that are indented to a column. The text so far is given in
reverse. -/
def blockLines (literal : Bool) (indent : Nat) :
    (fuel : Nat) → (afterBlank : Bool) → (leading trailing text : List Char) → Cursor →
      Except Fault (List Char × List Char × List Char × Cursor)
  | 0, _, leading, trailing, text, cur => .ok (text, leading, trailing, cur)
  | fuel + 1, afterBlank, leading, trailing, text, cur =>
    if cur.column == indent && !cur.atEnd then do
      let blank := cur.seesBlank
      -- A line that starts with a blank keeps the line breaks around it.
      let joint :=
        if !literal && leading == ['\n'] && !afterBlank && !blank then
          (if trailing.isEmpty then [' '] else trailing)
        else leading ++ trailing
      let (line, cur) := cur.takeWhile fun c => !isBreak c
      let leading := cur.breakText
      let cur := cur.nextLine
      let (trailing, _, cur) ← blockBreaks (some indent) (cur.rest.length + 1) 0 [] cur
      blockLines literal indent fuel blank leading trailing
        (line.reverse ++ (joint.reverse ++ text)) cur
    else .ok (text, leading, trailing, cur)

/-- Reads a block. The block that holds it is indented to the column `parent`, or to none. -/
def block (literal : Bool) (parent : Option Nat) (cur : Cursor) :
    Except Fault (List Char × Cursor) := do
  let (chomping, increment, cur) ← blockHeader cur.next
  let cur := (cur.skipWhile isBlank).skipComment
  if !cur.seesLineEnd then .error .brokenToken
  let cur := cur.nextLine
  let given := increment.map fun n => (parent.getD 0) + n
  let (breaks, widest, cur) ← blockBreaks given (cur.rest.length + 1) 0 [] cur
  let least := max ((parent.map (· + 1)).getD 0) 1
  let indent := given.getD (max widest least)
  let (text, leading, trailing, cur) ←
    blockLines literal indent (cur.rest.length + 1) false [] breaks [] cur
  let tail :=
    match chomping with
    | .strip => []
    | .clip => leading
    | .keep => leading ++ trailing
  return (text.reverse ++ tail, cur)

end EdgeGuard.Yaml
