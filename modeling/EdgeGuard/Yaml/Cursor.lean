import EdgeGuard.Yaml.Fault

/-!
# `EdgeGuard.Yaml.Cursor`: a place in a YAML text

A cursor holds the characters ahead and where they stand: their line and column and how many
bytes are behind. Classes of characters are asked of the character at a distance, where the
end of the text counts as a class of its own.
-/

set_option autoImplicit false

namespace EdgeGuard.Yaml

/-! ### Classes of characters -/

/-- Whether a text may hold a character: control characters are forbidden. -/
def isAllowed (c : Char) : Bool :=
  let n := c.toNat
  n == 0x09 || n == 0x0a || n == 0x0d || (0x20 ≤ n && n ≤ 0x7e) || n == 0x85
    || (0xa0 ≤ n && n ≤ 0xd7ff) || (0xe000 ≤ n && n ≤ 0xfffd) || 0x10000 ≤ n

/-- A line break: carriage return, line feed, next line, line or paragraph separator. -/
def isBreak (c : Char) : Bool :=
  c == '\n' || c == '\r' || c.toNat == 0x85 || c.toNat == 0x2028 || c.toNat == 0x2029

/-- A space or tab. -/
def isBlank (c : Char) : Bool := c == ' ' || c == '\t'

/-- A letter, digit, underscore or hyphen. -/
def isWordChar (c : Char) : Bool := c.isAlphanum || c == '_' || c == '-'

/-- The brackets and commas of flow collections. -/
def isFlowIndicator (c : Char) : Bool :=
  c == ',' || c == '[' || c == ']' || c == '\x7b' || c == '\x7d'

/-- The value of a hexadecimal digit. -/
def hexValue? (c : Char) : Option Nat :=
  if c.isDigit then some (c.toNat - 48)
  else if 'a' ≤ c ∧ c ≤ 'f' then some (c.toNat - 87)
  else if 'A' ≤ c ∧ c ≤ 'F' then some (c.toNat - 55)
  else none

/-- A place in a text. -/
structure Cursor where
  rest : List Char
  line : Nat
  column : Nat
  /-- How many bytes the encoding of what is behind takes. -/
  index : Nat

namespace Cursor

/-- The start of a text. -/
def start (text : List Char) : Cursor := ⟨text, 0, 0, 0⟩

/-- The character ahead. -/
def peek (cur : Cursor) : Option Char := cur.rest.head?

/-- The character at a distance. -/
def peekAt (cur : Cursor) (distance : Nat) : Option Char := cur.rest[distance]?

/-- Whether nothing is ahead. -/
def atEnd (cur : Cursor) : Bool := cur.rest.isEmpty

/-- Whether a given character is ahead. -/
def sees (cur : Cursor) (c : Char) : Bool := cur.peek == some c

/-- Whether a space or tab is ahead. -/
def seesBlank (cur : Cursor) : Bool := cur.peek.any isBlank

/-- Whether a line break is ahead. -/
def seesBreak (cur : Cursor) : Bool := cur.peek.any isBreak

/-- Whether a line break or the end is ahead. -/
def seesLineEnd (cur : Cursor) : Bool := cur.atEnd || cur.seesBreak

/-- Whether a blank, a line break or the end is at a distance. -/
def seesGapAt (cur : Cursor) (distance : Nat) : Bool :=
  match cur.peekAt distance with
  | none => true
  | some c => isBlank c || isBreak c

/-- Whether a blank, a line break or the end is ahead. -/
def seesGap (cur : Cursor) : Bool := cur.seesGapAt 0

/-- Whether a line of three hyphens or three dots starts here. -/
def seesDocumentMark (cur : Cursor) : Bool :=
  cur.column == 0 && cur.seesGapAt 3 &&
    (cur.rest.take 3 == ['-', '-', '-'] || cur.rest.take 3 == ['.', '.', '.'])

/-- How many bytes the encoding of characters takes. -/
def byteCount (text : List Char) : Nat := text.foldl (fun count c => count + c.utf8Size) 0

/-- The cursor some characters further on its line. -/
def advance (cur : Cursor) (count : Nat) : Cursor :=
  { cur with
    rest := cur.rest.drop count
    column := cur.column + count
    index := cur.index + byteCount (cur.rest.take count) }

/-- The cursor one character further on its line. -/
def next (cur : Cursor) : Cursor := cur.advance 1

/-- The cursor behind the line break ahead, if one is. -/
def nextLine (cur : Cursor) : Cursor :=
  match cur.rest with
  | '\r' :: '\n' :: rest => ⟨rest, cur.line + 1, 0, cur.index + 2⟩
  | c :: rest => if isBreak c then ⟨rest, cur.line + 1, 0, cur.index + c.utf8Size⟩ else cur
  | [] => cur

/-- The line break ahead as text: the separators stay, every other break is a line feed. -/
def breakText (cur : Cursor) : List Char :=
  match cur.peek with
  | none => []
  | some c => if c.toNat == 0x2028 || c.toNat == 0x2029 then [c] else if isBreak c then ['\n'] else []

/-- The characters ahead on the line that are of a class, and the cursor behind them. -/
def takeWhile (cur : Cursor) (p : Char → Bool) : List Char × Cursor :=
  let taken := cur.rest.takeWhile p
  (taken, cur.advance taken.length)

/-- The cursor behind the characters ahead on the line that are of a class. -/
def skipWhile (cur : Cursor) (p : Char → Bool) : Cursor := (cur.takeWhile p).2

/-- The cursor behind a comment, if one is ahead. -/
def skipComment (cur : Cursor) : Cursor :=
  if cur.sees '#' then cur.skipWhile fun c => !isBreak c else cur

end Cursor

end EdgeGuard.Yaml
