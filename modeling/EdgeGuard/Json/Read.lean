import EdgeGuard.Json.Mismatch

/-!
# `EdgeGuard.Json.Read`: reading JSON text

A reader takes characters off the front of a text and gives a result with the characters it
left, or the first error from the left. A text is refused as *truncated* when it ends too early,
as *malformed* when some character cannot stand where it stands, and with a *mismatch* when it
is JSON of another shape than was asked for.

* `Json.value` reads one value whose arrays and objects nest at most `depth` levels deep.
* `Json.read` reads a whole text.
* `Json.kindMismatch` is the error of a value of another kind than was asked for.

The readers here stand for those of serde_json. What they take to be its behaviour is said at
`Json.read`, and for numbers at `Decimal.toBinary64?`.
-/

set_option autoImplicit false

namespace EdgeGuard.Json

/-- Why a text was refused. -/
inductive ReadError where
  /-- A character cannot stand where it stands. -/
  | malformed
  /-- The text ends too early. -/
  | truncated
  /-- The text is JSON of another shape than was asked for. -/
  | mismatch (cause : Mismatch)

/-- A reader: from the characters ahead to a result and the characters left. -/
abbrev Reader (α : Type) := List Char → Except ReadError (α × List Char)

/-- The four characters that may stand between the parts of a JSON text. -/
def isSpace (c : Char) : Bool := c == ' ' || c == '\t' || c == '\n' || c == '\r'

/-- The characters ahead after any space. -/
def skipSpace (cs : List Char) : List Char := cs.dropWhile isSpace

/-- Reads exactly the characters of a word. -/
def word : List Char → List Char → Except ReadError (List Char)
  | [], cs => .ok cs
  | _ :: _, [] => .error .truncated
  | c :: more, d :: cs => if c = d then word more cs else .error .malformed

/-! ### Strings -/

/-- The value of a hexadecimal digit. -/
def hexValue? (c : Char) : Option Nat :=
  if '0' ≤ c ∧ c ≤ '9' then some (c.toNat - 48)
  else if 'a' ≤ c ∧ c ≤ 'f' then some (c.toNat - 87)
  else if 'A' ≤ c ∧ c ≤ 'F' then some (c.toNat - 55)
  else none

/-- The character that a backslash and a letter stand for. -/
def shortEscape? (c : Char) : Option Char :=
  if c = '"' then some '"'
  else if c = '\\' then some '\\'
  else if c = '/' then some '/'
  else if c = 'b' then some '\x08'
  else if c = 'f' then some '\x0c'
  else if c = 'n' then some '\n'
  else if c = 'r' then some '\r'
  else if c = 't' then some '\t'
  else none

/-- Whether at least `count` bytes of text are ahead. -/
def bytesAhead : (count : Nat) → List Char → Bool
  | 0, _ => true
  | _ + 1, [] => false
  | count + 1, c :: cs => bytesAhead (count + 1 - c.utf8Size) cs

/-- Where a reader stands inside a string. -/
inductive StringPlace where
  /-- Between two characters. -/
  | plain
  /-- Behind a backslash. -/
  | escape
  /-- Inside a code unit of four hexadecimal digits, of which `missing + 1` are ahead, behind
  the leading surrogate of a pair if there was one. -/
  | unit (missing value : Nat) (lead : Option Nat)
  /-- Behind a leading surrogate. -/
  | pair (lead : Nat)
  /-- Behind a leading surrogate and a backslash. -/
  | pairEscape (lead : Nat)

/-- Whether a code unit is the first of a surrogate pair. -/
def isLead (unit : Nat) : Bool := 0xd800 ≤ unit && unit ≤ 0xdbff

/-- Whether a code unit is the second of a surrogate pair. -/
def isTrail (unit : Nat) : Bool := 0xdc00 ≤ unit && unit ≤ 0xdfff

/-- The character of a surrogate pair. -/
def pairChar (lead trail : Nat) : Char :=
  Char.ofNat (0x10000 + (lead - 0xd800) * 0x400 + (trail - 0xdc00))

/-- A string read so far, with a character put before it. -/
def keep (c : Char) : Except ReadError (List Char × List Char) →
    Except ReadError (List Char × List Char)
  | .ok (text, rest) => .ok (c :: text, rest)
  | .error e => .error e

/-- Reads a string behind its opening quote, up to and with the closing quote. -/
def stringBody (place : StringPlace) : List Char → Except ReadError (List Char × List Char)
  | [] => .error .truncated
  | c :: cs =>
    match place with
    | .plain =>
      if c = '"' then .ok ([], cs)
      else if c = '\\' then stringBody .escape cs
      else if c.toNat < 0x20 then .error .malformed
      else keep c (stringBody .plain cs)
    | .escape =>
      match shortEscape? c with
      | some d => keep d (stringBody .plain cs)
      | none =>
        if c ≠ 'u' then .error .malformed
        -- That the text is too short for four digits is found before any of them is read.
        else if bytesAhead 4 cs then stringBody (.unit 3 0 none) cs
        else .error .truncated
    | .unit missing value lead =>
      match hexValue? c with
      | none => .error .malformed
      | some digit =>
        let value := value * 16 + digit
        match missing, lead with
        | missing + 1, lead => stringBody (.unit missing value lead) cs
        | 0, none =>
          if isTrail value then .error .malformed
          else if isLead value then stringBody (.pair value) cs
          else keep (Char.ofNat value) (stringBody .plain cs)
        -- The second unit of a pair has to be a trailing surrogate.
        | 0, some lead =>
          if isTrail value then keep (pairChar lead value) (stringBody .plain cs)
          else .error .malformed
    | .pair lead =>
      if c = '\\' then stringBody (.pairEscape lead) cs else .error .malformed
    | .pairEscape lead =>
      if c ≠ 'u' then .error .malformed
      else if bytesAhead 4 cs then stringBody (.unit 3 0 (some lead)) cs
      else .error .truncated

/-- Reads a string behind its opening quote. -/
def string : Reader String := fun cs => do
  let (text, rest) ← stringBody .plain cs
  return (String.ofList text, rest)

/-! ### Numbers -/

/-- Whether a character is a decimal digit. -/
def isDigit (c : Char) : Bool := '0' ≤ c && c ≤ '9'

/-- The value of decimal digits. -/
def digitsValue (ds : List Char) : Nat := ds.foldl (fun n c => n * 10 + (c.toNat - 48)) 0

/-- Reads one digit or more. -/
def digits (cs : List Char) : Except ReadError (List Char × List Char) :=
  match cs.takeWhile isDigit with
  | [] => .error (if cs.isEmpty then .truncated else .malformed)
  | ds => .ok (ds, cs.dropWhile isDigit)

/-- Reads the part of a number behind its point, if a point is ahead. -/
def fraction : Reader (Option (List Char))
  | '.' :: cs => do
    let (ds, rest) ← digits cs
    return (some ds, rest)
  | cs => .ok (none, cs)

/-- Reads the exponent of a number, if its mark is ahead. -/
def exponent : Reader (Option Int)
  | c :: cs =>
    if c = 'e' ∨ c = 'E' then
      match cs with
      | '-' :: cs => do
        let (ds, rest) ← digits cs
        return (some (-(digitsValue ds : Int)), rest)
      | '+' :: cs => do
        let (ds, rest) ← digits cs
        return (some (digitsValue ds : Int), rest)
      | cs => do
        let (ds, rest) ← digits cs
        return (some (digitsValue ds : Int), rest)
    else .ok (none, c :: cs)
  | [] => .ok (none, [])

/-- Reads the digits of a whole number. Zero has one digit, and no other number starts with
zero. -/
def wholeDigits (cs : List Char) : Except ReadError (List Char × List Char) := do
  let (ds, rest) ← digits cs
  if ds.head? = some '0' ∧ ds.length ≠ 1 then .error .malformed
  return (ds, rest)

/-- The number that an integer of the text stands for: an integer when 64 bits hold it, else
the nearest double. The negative zero is a double. -/
def integerNumber? (negative : Bool) (n : Nat) : Option Number :=
  let whole : Int := if negative then -n else n
  -- No integer is the negative zero.
  let exact := if negative && n == 0 then none else Number.ofInt? whole
  match exact with
  | some number => some number
  | none => (Decimal.toBinary64? ⟨negative, n, 0⟩).map .float

/-- The number with these digits before and behind the point and this exponent. With a point or an
exponent it is a double. All its digits go into the one exact rounding of `Decimal.toBinary64?`,
under the assumption stated there: that the digits written for a double are read as that double. -/
def assemble? (negative : Bool) (whole : List Char) (places : Option (List Char))
    (power : Option Int) : Option Number :=
  match places, power with
  | none, none => integerNumber? negative (digitsValue whole)
  | _, _ =>
    let ds := places.getD []
    -- The digits behind the point are digits of the whole with a smaller exponent.
    let decimal : Decimal :=
      ⟨negative, digitsValue (whole ++ ds), power.getD 0 - ds.length⟩
    decimal.toBinary64?.map .float

/-- Reads a number without a sign. -/
def magnitude (negative : Bool) : Reader Number := fun cs => do
  let (whole, cs) ← wholeDigits cs
  let (places, cs) ← fraction cs
  let (power, cs) ← exponent cs
  match assemble? negative whole places power with
  | some number => .ok (number, cs)
  | none => .error .malformed

/-- Reads a number. -/
def number : Reader Number
  | '-' :: cs => magnitude true cs
  | cs => magnitude false cs

/-! ### Values -/

/-- Reads the items of an array behind an item, up to and with the closing bracket. -/
def moreItems {α : Type} (item : Reader α) : (fuel : Nat) → Reader (List α)
  | 0, _ => .error .malformed
  | fuel + 1, cs =>
    match skipSpace cs with
    | [] => .error .truncated
    | ']' :: rest => .ok ([], rest)
    | ',' :: rest =>
      match skipSpace rest with
      | [] => .error .truncated
      -- No comma may stand before the bracket.
      | ']' :: _ => .error .malformed
      | rest => do
        let (value, rest) ← item rest
        let (values, rest) ← moreItems item fuel rest
        return (value :: values, rest)
    | _ => .error .malformed

/-- Reads an array behind its opening bracket. -/
def items {α : Type} (item : Reader α) : Reader (List α) := fun cs =>
  match skipSpace cs with
  | [] => .error .truncated
  | ']' :: rest => .ok ([], rest)
  | rest => do
    let (value, rest) ← item rest
    let (values, rest) ← moreItems item (rest.length + 1) rest
    return (value :: values, rest)

/-- Reads the colon between a name and its value. -/
def colon (cs : List Char) : Except ReadError (List Char) :=
  match skipSpace cs with
  | [] => .error .truncated
  | ':' :: rest => .ok rest
  | _ => .error .malformed

/-- Reads a name, a colon and a value, where the quote of the name is behind. -/
def field {ν α : Type} (name : Reader ν) (value : Reader α) : Reader (ν × α) := fun cs => do
  let (key, rest) ← name cs
  let rest ← colon rest
  let (v, rest) ← value rest
  return ((key, v), rest)

/-- Reads what follows a field of an object: the end of the object, or a comma and the opening
quote of the next name. -/
def nextField (cs : List Char) : Except ReadError (Bool × List Char) :=
  match skipSpace cs with
  | [] => .error .truncated
  | '\x7d' :: rest => .ok (false, rest)
  | ',' :: rest =>
    match skipSpace rest with
    | [] => .error .truncated
    | '"' :: rest => .ok (true, rest)
    | _ => .error .malformed
  | _ => .error .malformed

/-- Reads the start of an object behind its opening brace: the end of the object, or the opening
quote of the first name. -/
def firstField (cs : List Char) : Except ReadError (Bool × List Char) :=
  match skipSpace cs with
  | [] => .error .truncated
  | '\x7d' :: rest => .ok (false, rest)
  | '"' :: rest => .ok (true, rest)
  | _ => .error .malformed

/-- Reads the fields of an object behind the opening quote of a name, up to and with the closing
brace. -/
def moreFields {ν α : Type} (name : Reader ν) (value : Reader α) :
    (fuel : Nat) → Reader (List (ν × α))
  | 0, _ => .error .malformed
  | fuel + 1, cs => do
    let (pair, rest) ← field name value cs
    let (more, rest) ← nextField rest
    if more then
      let (pairs, rest) ← moreFields name value fuel rest
      return (pair :: pairs, rest)
    return ([pair], rest)

/-- Reads an object behind its opening brace. -/
def fields {ν α : Type} (name : Reader ν) (value : Reader α) : Reader (List (ν × α)) := fun cs => do
  let (more, rest) ← firstField cs
  if more then moreFields name value (rest.length + 1) rest
  else return ([], rest)

/-- Reads a value. Arrays and objects may nest `depth` levels deep: the bracket or brace that
opens one level more is malformed, before anything behind it is read. Of several fields with one
name the last is kept. -/
def value : (depth : Nat) → Reader Json
  | depth, cs =>
    match skipSpace cs with
    | [] => .error .truncated
    | 'n' :: rest => do return (.null, ← word ['u', 'l', 'l'] rest)
    | 't' :: rest => do return (.bool true, ← word ['r', 'u', 'e'] rest)
    | 'f' :: rest => do return (.bool false, ← word ['a', 'l', 's', 'e'] rest)
    | '"' :: rest => do
      let (text, rest) ← string rest
      return (.str text, rest)
    | '[' :: rest =>
      match depth with
      | 0 => .error .malformed
      | depth + 1 => do
        let (values, rest) ← items (value depth) rest
        return (.arr values, rest)
    | '\x7b' :: rest =>
      match depth with
      | 0 => .error .malformed
      | depth + 1 => do
        let (pairs, rest) ← fields string (value depth) rest
        return (.obj (Bindings.ofList pairs), rest)
    | c :: rest =>
      if c = '-' ∨ isDigit c then do
        let (n, rest) ← number (c :: rest)
        return (.num n, rest)
      else .error .malformed

/-- How deep arrays and objects may nest in a text. serde_json starts with 128 levels and refuses
the bracket or brace that takes the last of them. -/
def depthLimit : Nat := 127

/-- What a reader gives on a whole text: nothing but space may be left. -/
def readAll {α : Type} (reader : Reader α) (text : String) : Except ReadError α := do
  let (result, rest) ← reader text.toList
  if (skipSpace rest).isEmpty then return result else .error .malformed

/-- Reads a text that is one value.

This stands for reading a value with serde_json, of which it assumes the following.

* The texts that are read are those of the grammar of RFC 8259 with at most `depthLimit` levels of
  nesting, without half surrogates and without numbers beyond the largest double.
* An integer that 64 bits hold stays one, and any other number becomes a double.
* The fields of an object are sorted, and the last of one name counts.
* The first fault from the left is the one reported, and it has one of the kinds of `ReadError`. -/
def read (text : String) : Except ReadError Json := readAll (value depthLimit) text

/-! ### Readers for one shape -/

/-- The error of a text whose next value is of another kind than was asked for. Scalars are
read first, so that a fault inside one is found; of an array or object only the opening bracket
counts. -/
def kindMismatch {α : Type} (expected : Expected) (cs : List Char) : Except ReadError α :=
  let mismatch (found : Found) : Except ReadError α :=
    .error (.mismatch (.kind found expected))
  match skipSpace cs with
  | [] => .error .truncated
  | 'n' :: rest => do
    let _ ← word ['u', 'l', 'l'] rest
    mismatch .null
  | 't' :: rest => do
    let _ ← word ['r', 'u', 'e'] rest
    mismatch (.bool true)
  | 'f' :: rest => do
    let _ ← word ['a', 'l', 's', 'e'] rest
    mismatch (.bool false)
  | '"' :: rest => do
    let (text, _) ← string rest
    mismatch (.str text)
  | '[' :: _ => mismatch .sequence
  | '\x7b' :: _ => mismatch .map
  | c :: rest =>
    if c = '-' ∨ isDigit c then do
      let (n, _) ← number (c :: rest)
      mismatch (.num n)
    else .error .malformed

/-- Reads a string. -/
def stringText : Reader String := fun cs =>
  match skipSpace cs with
  | '"' :: rest => string rest
  | _ => kindMismatch .string cs

/-- Reads a string, or null for none. -/
def optionalText : Reader (Option String) := fun cs =>
  match skipSpace cs with
  | 'n' :: rest => do return (none, ← word ['u', 'l', 'l'] rest)
  | _ => do
    let (text, rest) ← stringText cs
    return (some text, rest)

/-- Reads a truth value. -/
def boolText : Reader Bool := fun cs =>
  match skipSpace cs with
  | 't' :: rest => do return (true, ← word ['r', 'u', 'e'] rest)
  | 'f' :: rest => do return (false, ← word ['a', 'l', 's', 'e'] rest)
  | _ => kindMismatch .boolean cs

end EdgeGuard.Json
