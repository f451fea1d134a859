import EdgeGuard.Number.Decimal

/-!
# `EdgeGuard.Number.Basic`: the numbers of a JSON value

A number is an integer of 64 bits, signed or unsigned, or a finite double. The two kinds
stay apart when a value is stored or printed (`1` and `1.0`), and are compared as doubles
when a condition compares them (`Number.scaled`).
-/

set_option autoImplicit false

namespace EdgeGuard

/-- A number of a JSON value. -/
inductive Number where
  /-- An integer that fits into 64 bits, signed or unsigned: from `-2^63` to below `2^64`. -/
  | int (value : Int)
    (inRange : -9223372036854775808 ≤ value ∧ value < 18446744073709551616)
  /-- A finite double. -/
  | float (value : Binary64)
deriving DecidableEq

namespace Number

/-- A natural number below `2^64` as a number. -/
def ofNat (n : Nat) (h : n < 18446744073709551616 := by decide) : Number :=
  .int n (by omega)

/-- The integer as a number, if 64 bits hold it. -/
def ofInt? (value : Int) : Option Number :=
  if h : -9223372036854775808 ≤ value ∧ value < 18446744073709551616 then some (.int value h)
  else none

/-- The double nearest to an integer of 64 bits. -/
def nearest (value : Int) : Binary64 :=
  (Binary64.ofUnits (value < 0) (value.natAbs * Binary64.one) 1).getD (.zero false)

/-- The number as a double, rounded to nearest. -/
def toBinary64 : Number → Binary64
  | .int value _ => nearest value
  | .float value => value

/-- The value as a double, in units of `2^-1074`. Conditions compare numbers by it. -/
def scaled (n : Number) : Int := n.toBinary64.scaled

/-- Whether two stored numbers are the same: of one kind and of one value. The two zeros
of the doubles are the same. -/
def same : Number → Number → Bool
  | .int a _, .int b _ => a == b
  | .float a, .float b => a.scaled == b.scaled
  | _, _ => false

/-- The text of an integer: its digits, with a sign when it is negative. -/
def intChars (value : Int) : List Char :=
  if value < 0 then '-' :: Decimal.digitsOf value.natAbs else Decimal.digitsOf value.natAbs

/-- Doubles are written plainly from `0.00001` up to sixteen digits before the point. -/
def layout : Decimal.Layout := ⟨-5, 15⟩

/-- The text of a number: integers as digits, doubles with the fewest digits that read
back. -/
def chars : Number → List Char
  | .int value _ => intChars value
  | .float value => value.shortest.chars layout

end Number

end EdgeGuard
