import EdgeGuard.Json.Basic
import EdgeGuard.Yaml.Scalar
import EdgeGuard.Yaml.Tag

/-!
# `EdgeGuard.Yaml.Resolve`: the values that scalars stand for

A plain scalar without a tag stands for null, a truth value, a number or its text. Integers may
be written in base ten, or with a base mark in base sixteen, eight or two; digits behind a leading
zero are text. A tag asks for one kind, whatever the style of the scalar.

* `Yaml.scalarValue` gives the value of a scalar.
-/

set_option autoImplicit false

namespace EdgeGuard.Yaml

/-- Whether a text stands for null. -/
def isNull (text : String) : Bool :=
  text == "null" || text == "Null" || text == "NULL" || text == "~"

/-- The truth value that a text stands for. -/
def bool? (text : String) : Option Bool :=
  if text == "true" || text == "True" || text == "TRUE" then some true
  else if text == "false" || text == "False" || text == "FALSE" then some false
  else none

/-! ### Integers -/

/-- The value of a digit, letters counting from ten. -/
def digit? (base : Nat) (c : Char) : Option Nat :=
  let value :=
    if c.isDigit then c.toNat - 48
    else if 'a' ≤ c ∧ c ≤ 'z' then c.toNat - 87
    else if 'A' ≤ c ∧ c ≤ 'Z' then c.toNat - 55
    else base
  if value < base then some value else none

/-- The value of digits behind a value. -/
def digitsFrom? (base : Nat) : Nat → List Char → Option Nat
  | value, [] => some value
  | value, c :: cs =>
    match digit? base c with
    | some digit => digitsFrom? base (value * base + digit) cs
    | none => none

/-- The value of one digit or more. -/
def digits? (base : Nat) (cs : List Char) : Option Nat :=
  if cs.isEmpty then none else digitsFrom? base 0 cs

/-- The characters without a sign before them. -/
def unsigned : List Char → List Char
  | '-' :: cs => cs
  | '+' :: cs => cs
  | cs => cs

/-- Whether digits stand behind a leading zero: such a text is no number. -/
def isZeroPadded (cs : List Char) : Bool :=
  match unsigned cs with
  | '0' :: c :: rest => (c :: rest).all Char.isDigit
  | _ => false

/-- The value of digits with a mark of their base. -/
def based? : List Char → Option Nat
  | '0' :: 'x' :: cs => digits? 16 cs
  | '0' :: 'o' :: cs => digits? 8 cs
  | '0' :: 'b' :: cs => digits? 2 cs
  | _ => none

/-- The value of an integer without a minus sign. -/
def natural? (cs : List Char) : Option Nat :=
  let magnitude :=
    match cs with
    | '+' :: rest => rest
    | _ => cs
  match based? magnitude with
  | some n => some n
  | none => if isZeroPadded cs then none else digits? 10 magnitude

/-- The magnitude of an integer with a minus sign. -/
def negative? : List Char → Option Nat
  | '-' :: cs =>
    match based? cs with
    | some n => some n
    | none => if isZeroPadded cs then none else digits? 10 cs
  | _ => none

/-- The integer that a text stands for. -/
def integer? (cs : List Char) : Option Int :=
  match natural? cs with
  | some n => some n
  | none => (negative? cs).map fun n => -(n : Int)

/-- Whether 128 bits hold an integer, so that it is no text for a double. -/
def fits128 (value : Int) : Bool := -(Nat.pow 2 127 : Int) ≤ value && value < Nat.pow 2 128

/-! ### Doubles -/

/-- What a text for a double stands for. -/
inductive Real where
  | finite (value : Binary64)
  /-- An infinity, or not a number. -/
  | other

/-- The exponent behind its mark. -/
def exponent? : List Char → Option Int
  | '-' :: cs => (digits? 10 cs).map fun n => -(n : Int)
  | '+' :: cs => (digits? 10 cs).map Int.ofNat
  | cs => (digits? 10 cs).map Int.ofNat

/-- The decimal that a text without a sign stands for: digits with or without a point and an
exponent. -/
def decimal? (negative : Bool) (cs : List Char) : Option Decimal :=
  let whole := cs.takeWhile Char.isDigit
  let rest := cs.dropWhile Char.isDigit
  let (places, rest) :=
    match rest with
    | '.' :: rest => (rest.takeWhile Char.isDigit, rest.dropWhile Char.isDigit)
    | _ => ([], rest)
  let ds := whole ++ places
  match digits? 10 ds, rest with
  | some n, [] => some ⟨negative, n, -(places.length : Int)⟩
  | some n, c :: rest =>
    if c == 'e' || c == 'E' then
      (exponent? rest).map fun power => ⟨negative, n, power - places.length⟩
    else none
  | none, _ => none

/-- The double that a text stands for. -/
def real? (text : String) : Option Real :=
  let cs := text.toList
  let positive :=
    match cs with
    | '+' :: rest => rest
    | _ => cs
  let infinities := [".inf", ".Inf", ".INF"].map String.toList
  if cs.head? == some '+' && (positive.head? == some '+' || positive.head? == some '-') then none
  else if infinities.contains positive then some .other
  else if (infinities.map ('-' :: ·)).contains cs then some .other
  else if text == ".nan" || text == ".NaN" || text == ".NAN" then some .other
  else
    let decimal :=
      match positive with
      | '-' :: rest => decimal? true rest
      | rest => decimal? false rest
    (decimal.bind Decimal.toBinary64?).map .finite

/-- The value of a double. What is not finite is null. -/
def Real.toJson : Real → Json
  | .finite value => .num (.float value)
  | .other => .null

/-! ### Scalars -/

/-- The value of an integer: 64 bits have to hold it. -/
def integerValue (value : Int) : Except Fault Json :=
  match Number.ofInt? value with
  | some number => .ok (.num number)
  | none => .error .shape

/-- The value of a plain scalar without a tag. -/
def plainValue (text : String) : Except Fault Json :=
  if text == "" || isNull text then .ok .null
  else
    match bool? text with
    | some value => .ok (.bool value)
    | none =>
      -- An integer of more than 128 bits is read as a double, one of more than 64 bits refused.
      match (integer? text.toList).filter fits128 with
      | some value => integerValue value
      | none =>
        if isZeroPadded text.toList then .ok (.str text)
        else
          match real? text with
          | some value => .ok value.toJson
          | none => .ok (.str text)

/-- The value of a scalar whose tag asks for a kind. -/
def taggedValue (tag : Tag) (text : String) : Except Fault Json :=
  if tag == .core "bool" then
    match bool? text with
    | some value => .ok (.bool value)
    | none => .error .shape
  else if tag == .core "int" then
    match (integer? text.toList).filter fits128 with
    | some value => integerValue value
    | none => .error .shape
  else if tag == .core "float" then
    match real? text with
    | some value => .ok value.toJson
    | none => .error .shape
  else if tag == .core "null" then
    if isNull text then .ok .null else .error .shape
  else .ok (.str text)

/-- The value of a scalar. A local tag that is no text counts as none. -/
def scalarValue (tag : Option Tag) (style : Style) (text : String) : Except Fault Json :=
  match tag.filter fun tag => !tag.isLocal || tag.isText with
  | some tag => if tag.isOwn then .error .shape else taggedValue tag text
  | none => if style == .plain then plainValue text else .ok (.str text)

end EdgeGuard.Yaml
