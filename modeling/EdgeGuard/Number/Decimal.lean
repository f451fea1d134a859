import EdgeGuard.Number.Binary64

/-!
# `EdgeGuard.Number.Decimal`: decimals, the doubles they name, the digits of a double

A decimal is `± digits · 10^exponent`. `Decimal.toBinary64?` is the double nearest to it.
`Binary64.shortest` is the decimal with the fewest digits that names a given double, and
of two such decimals the nearer one.

* `Binary64.toBinary64?_shortest` says that the digits written for a double read back
  as that double.
-/

set_option autoImplicit false

namespace EdgeGuard

/-- The number `± digits · 10^exponent`. -/
structure Decimal where
  negative : Bool
  digits : Nat
  exponent : Int
deriving DecidableEq, Repr

namespace Decimal

/-- The decimal digits of a natural number. -/
def digitsOf (n : Nat) : List Char := Nat.toDigits 10 n

/-- The double nearest to a decimal, or nothing beyond the largest double.

This one exact rounding stands for how serde_json reads a number, and is an assumption about it:
that a double which was written reads back as itself (`Binary64.toBinary64?_shortest`). With its
feature `float_roundtrip` it reads all decimals so. Without the feature it rounds a long
significand and then the result of scaling it by a power of ten, and two roundings may end at a
neighbour of the nearest double. What is said about trees and edges that come back from a text
rests on this assumption wherever they hold such a number.

The two bounds on the exponent only keep the powers of ten small: with an exponent of 310
the value is out of range, and below the lower bound it is under half of the smallest
double. -/
def toBinary64? (d : Decimal) : Option Binary64 :=
  if d.digits = 0 then some (.zero d.negative)
  else if 310 ≤ d.exponent then none
  else if d.exponent < -((d.digits.log2 : Int) + 400) then some (.zero d.negative)
  else if 0 ≤ d.exponent then
    Binary64.ofUnits d.negative (d.digits * Nat.pow 10 d.exponent.toNat * Binary64.one) 1
  else
    Binary64.ofUnits d.negative (d.digits * Binary64.one) (Nat.pow 10 (-d.exponent).toNat)

/-- A decimal with places behind its point is a quotient of units, and neither of the bounds on the
exponent applies to it. -/
theorem toBinary64?_of_neg (negative : Bool) {digits : Nat} (places : Nat)
    (hd : digits ≠ 0) (hp : 0 < places) (hb : places ≤ digits.log2 + 400) :
    toBinary64? ⟨negative, digits, -(places : Nat)⟩
      = Binary64.ofUnits negative (digits * Binary64.one) (Nat.pow 10 places) := by
  unfold toBinary64?
  rw [if_neg hd, if_neg (by simp only; omega), if_neg (by simp only; omega),
    if_neg (by simp only; omega)]
  simp

/-- Moves zeros at the end of the digits into the exponent, at most `fuel` of them. -/
def stripZeros : (fuel : Nat) → Decimal → Decimal
  | 0, d => d
  | fuel + 1, d =>
    if d.digits % 10 = 0 ∧ d.digits ≠ 0 then
      stripZeros fuel { d with digits := d.digits / 10, exponent := d.exponent + 1 }
    else d

/-! ### The written form -/

/-- How a decimal is laid out: the scientific exponents that are written without an
exponent run from `plainMin` to `plainMax`. -/
structure Layout where
  plainMin : Int
  plainMax : Int

/-- The digits with a point after the first, and none after a single digit. -/
def mantissaText : List Char → List Char
  | [] => []
  | [c] => [c]
  | c :: rest => c :: '.' :: rest

/-- The digits `ds` times ten to the `exponent` without an exponent mark, with at least one
digit on each side of the point. -/
def plainText (ds : List Char) (exponent : Int) : List Char :=
  if 0 ≤ exponent then ds ++ List.replicate exponent.toNat '0' ++ ['.', '0']
  else
    let places := (-exponent).toNat
    if places < ds.length then
      ds.take (ds.length - places) ++ '.' :: ds.drop (ds.length - places)
    else '0' :: '.' :: (List.replicate (places - ds.length) '0' ++ ds)

/-- The digits with an exponent mark. The sign of the exponent is always written. -/
def scientificText (ds : List Char) (scientific : Int) : List Char :=
  mantissaText ds ++ 'e' ::
    (if 0 ≤ scientific then '+' :: digitsOf scientific.toNat
     else '-' :: digitsOf (-scientific).toNat)

/-- The text of a decimal under a layout. -/
def chars (layout : Layout) (d : Decimal) : List Char :=
  let ds := digitsOf d.digits
  -- The exponent when the point stands behind the first digit.
  let scientific := d.exponent + ds.length - 1
  let magnitude :=
    if layout.plainMin ≤ scientific ∧ scientific ≤ layout.plainMax then
      plainText ds d.exponent
    else scientificText ds scientific
  if d.negative then '-' :: magnitude else magnitude

end Decimal

namespace Binary64

/-- The exponent `e` with `10^e ≤ |x| < 10^(e+1)`, for `x` other than zero. -/
def decimalExponent (x : Binary64) : Int :=
  if one ≤ x.units then ((Decimal.digitsOf (x.units / one)).length : Int) - 1
  else -((Decimal.digitsOf ((one - 1) / x.units)).length : Int)

/-- The decimal that equals a double exactly. -/
def exactDecimal (x : Binary64) : Decimal :=
  ⟨x.negative, x.units * Nat.pow 5 places, -(places : Int)⟩

/-- A decimal, if it names `x`. -/
def named? (x : Binary64) (d : Decimal) : Option Decimal :=
  if d.toBinary64? = some x then some d else none

/-- The quotient `|x| / 10^exponent` as a numerator and a denominator. -/
def overPowerOfTen (x : Binary64) (exponent : Int) : Nat × Nat :=
  if 0 ≤ exponent then (x.units, one * Nat.pow 10 exponent.toNat)
  else (x.units * Nat.pow 10 (-exponent).toNat, one)

/-- Of the two whole numbers around `num / den`, the one whose decimal names `x`. When both
do it is the nearer one, and the even one when they are equally near. -/
def nearerNamed? (x : Binary64) (num den : Nat) (decimal : Nat → Decimal) : Option Decimal :=
  -- If any whole number of this grid names `x`, then one of these two does.
  match x.named? (decimal (num / den)), x.named? (decimal (num / den + 1)) with
  | some low, some high => some (if roundHalfEven num den = num / den then low else high)
  | some low, none => some low
  | none, found => found

/-- The decimal with at most `n` digits that is nearest to `x` among those that name `x`. -/
def withDigits? (x : Binary64) (n : Nat) : Option Decimal :=
  let exponent := x.decimalExponent - (n - 1 : Nat)
  let quotient := x.overPowerOfTen exponent
  x.nearerNamed? quotient.1 quotient.2 fun digits =>
    .stripZeros (n + 1) ⟨x.negative, digits, exponent⟩

/-- The decimal with the fewest digits that names `x`. Seventeen digits always suffice. -/
def shortest (x : Binary64) : Decimal :=
  if x.units = 0 then ⟨x.negative, 0, 0⟩
  else ((List.range 17).findSome? fun i => x.withDigits? (i + 1)).getD x.exactDecimal

/-- A decimal that was found to name a double is read as that double. -/
theorem toBinary64?_of_named {x : Binary64} {d e : Decimal} (h : x.named? e = some d) :
    d.toBinary64? = some x := by
  unfold named? at h
  split at h
  · next he => rwa [← Option.some.inj h]
  · exact absurd h (by simp)

/-- Of two candidates, the one that was chosen is read as the double in question. -/
theorem toBinary64?_of_nearerNamed {x : Binary64} {num den : Nat} {f : Nat → Decimal}
    {d : Decimal} (h : x.nearerNamed? num den f = some d) : d.toBinary64? = some x := by
  unfold nearerNamed? at h
  split at h
  · next low high hlow hhigh =>
    rw [← Option.some.inj h]
    split
    · exact toBinary64?_of_named hlow
    · exact toBinary64?_of_named hhigh
  · next low hlow _ =>
    rw [← Option.some.inj h]
    exact toBinary64?_of_named hlow
  · exact toBinary64?_of_named h

/-- The decimal found for a number of digits is read as the double in question. -/
theorem toBinary64?_of_withDigits {x : Binary64} {n : Nat} {d : Decimal}
    (h : x.withDigits? n = some d) : d.toBinary64? = some x := by
  unfold withDigits? at h
  exact toBinary64?_of_nearerNamed h

/-- A power of five has at least as many bits as its exponent says, also as a factor. This keeps the
exact decimal of a double above the lower bound on the exponent. -/
theorem le_log2_mul_five_pow {n j k : Nat} (hn : n ≠ 0) (h : j ≤ k) :
    j ≤ (n * Nat.pow 5 k).log2 := by
  have hpos : 0 < Nat.pow 5 k := Nat.pow_pos (by decide)
  refine (Nat.le_log2 (Nat.mul_ne_zero hn (Nat.ne_of_gt hpos))).2 ?_
  calc Nat.pow 2 j ≤ Nat.pow 5 j := Nat.pow_le_pow_left (by decide) j
    _ ≤ Nat.pow 5 k := Nat.pow_le_pow_right (by decide) h
    _ ≤ n * Nat.pow 5 k := Nat.le_mul_of_pos_left _ (Nat.pos_of_ne_zero hn)

/-- A double with `k` factors of five put to its units reads as a decimal of `k` places. -/
theorem toBinary64?_fives {x : Binary64} (h : x.units ≠ 0) (k : Nat) (hk : 0 < k)
    (hone : one = Nat.pow 2 k) :
    Decimal.toBinary64? ⟨x.negative, x.units * Nat.pow 5 k, -(k : Nat)⟩ = some x := by
  have hpos : 0 < Nat.pow 5 k := Nat.pow_pos (by decide)
  have hlog := le_log2_mul_five_pow h (Nat.le_refl k)
  rw [Decimal.toBinary64?_of_neg x.negative k (Nat.mul_ne_zero h (Nat.ne_of_gt hpos)) hk
    (by omega), hone, Nat.mul_assoc]
  -- Five and two to the same power make up the power of ten.
  have hten : Nat.pow 5 k * Nat.pow 2 k = Nat.pow 10 k := (Nat.mul_pow 5 2 k).symm
  rw [hten]
  exact ofUnits_units x _ (Nat.pow_pos (by decide))

/-- A shifted one is a power of two. It is stated for every shift, so that no proof evaluates the
shift by `places`. -/
theorem one_shiftLeft_eq (n : Nat) : 1 <<< n = Nat.pow 2 n := Nat.one_shiftLeft n

/-- The units in one are a power of two. -/
theorem one_eq : one = Nat.pow 2 places := one_shiftLeft_eq places

/-- The exact decimal of a double other than zero is read as that double. -/
theorem toBinary64?_exactDecimal {x : Binary64} (h : x.units ≠ 0) :
    x.exactDecimal.toBinary64? = some x :=
  toBinary64?_fives h places (by decide) one_eq

/-- The digits written for a double name that double. -/
theorem toBinary64?_shortest (x : Binary64) : x.shortest.toBinary64? = some x := by
  unfold shortest
  split
  · next h =>
    have hm : x.mantissa = 0 := by
      rw [units, Nat.shiftLeft_eq] at h
      rcases Nat.mul_eq_zero.1 h with h0 | h0
      · exact h0
      · exact absurd h0 (Nat.ne_of_gt (Nat.two_pow_pos _))
    have hs : x.shift = 0 := by
      rcases x.canonical with h0 | h0
      · exact h0
      · rw [hm] at h0
        exact absurd h0 (by decide)
    obtain ⟨negative, mantissa, shift, _, _, _⟩ := x
    simp only at hm hs
    subst hm hs
    rfl
  · next h =>
    cases hd : (List.range 17).findSome? fun i => x.withDigits? (i + 1) with
    | none => exact toBinary64?_exactDecimal h
    | some d =>
      obtain ⟨i, _, hi⟩ := List.exists_of_findSome?_eq_some hd
      exact toBinary64?_of_withDigits hi

end Binary64

end EdgeGuard
