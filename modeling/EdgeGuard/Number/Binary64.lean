/-!
# `EdgeGuard.Number.Binary64`: finite doubles as exact integers

A finite double is a sign, a mantissa below `2^53` and a shift: its magnitude is
`mantissa · 2^shift` units of `2^-1074`, the smallest positive double. In these
units every double is an integer (`Binary64.scaled`), so the order of doubles is the
order of integers and no floating-point operation takes part.

* `roundHalfEven` is the nearest integer to a quotient, a half going to the even one.
* `Binary64.ofUnits` is the nearest double to a quotient of units; it gives nothing
  only when the quotient is too large (`Binary64.ofUnits_isSome`).
* `Binary64.ofUnits_units` says that rounding leaves a double as it is.
-/

set_option autoImplicit false

namespace EdgeGuard

/-! ### Rounding a quotient -/

/-- The integer nearest to `num / den`. A half goes to the even neighbour. -/
def roundHalfEven (num den : Nat) : Nat :=
  if 2 * (num % den) < den then num / den
  else if den < 2 * (num % den) then num / den + 1
  else num / den + num / den % 2

/-- Rounding does not go below the quotient rounded down. -/
theorem le_roundHalfEven (num den : Nat) : num / den ≤ roundHalfEven num den := by
  unfold roundHalfEven
  split
  · omega
  · split <;> omega

/-- Rounding goes above the quotient rounded down by one at most. -/
theorem roundHalfEven_le (num den : Nat) : roundHalfEven num den ≤ num / den + 1 := by
  unfold roundHalfEven
  split
  · omega
  · split <;> omega

/-- A quotient without a remainder is its own rounding. -/
theorem roundHalfEven_mul (n den : Nat) (h : 0 < den) : roundHalfEven (n * den) den = n := by
  simp [roundHalfEven, h]

/-! ### Doubles -/

/-- A finite double: `mantissa · 2^shift` units of `2^-1074`, with a sign. The mantissa is below
`2^53` and not below `2^52` unless the shift is zero, so each value has one form. -/
structure Binary64 where
  negative : Bool
  mantissa : Nat
  shift : Nat
  mantissa_lt : mantissa < 9007199254740992
  shift_le : shift ≤ 2045
  canonical : shift = 0 ∨ 4503599627370496 ≤ mantissa
deriving DecidableEq

namespace Binary64

/-- The binary places behind the point of the smallest positive double. -/
def places : Nat := 1074

/-- The number of units of `2^-1074` in one. -/
def one : Nat := 1 <<< places

/-- The magnitude in units of `2^-1074`. -/
def units (x : Binary64) : Nat := x.mantissa <<< x.shift

/-- The signed value in units of `2^-1074`. Both zeros give `0`. -/
def scaled (x : Binary64) : Int :=
  if x.negative then -(x.units : Int) else x.units

/-- The zero of a sign. -/
def zero (negative : Bool) : Binary64 :=
  ⟨negative, 0, 0, by decide, by decide, .inl rfl⟩

/-- The double with these parts, if the parts are those of a double. -/
def ofParts? (negative : Bool) (mantissa shift : Nat) : Option Binary64 :=
  if h : mantissa < 9007199254740992 ∧ shift ≤ 2045 ∧ (shift = 0 ∨ 4503599627370496 ≤ mantissa)
  then
    some ⟨negative, mantissa, shift, h.1, h.2.1, h.2.2⟩
  else none

/-- The shift at which a magnitude of `n` whole units fills the mantissa. -/
def shiftFor (n : Nat) : Nat := n.log2 - 52

/-- The double nearest to `num / den` units, a half going to the even mantissa. Gives
nothing when that is beyond the largest double. -/
def ofUnits (negative : Bool) (num den : Nat) : Option Binary64 :=
  let shift := shiftFor (num / den)
  let mantissa := roundHalfEven num (den <<< shift)
  -- A mantissa that was rounded up to `2^53` is written with half of it at the next shift.
  if mantissa = 9007199254740992 then ofParts? negative 4503599627370496 (shift + 1)
  else ofParts? negative mantissa shift

/-- Shifted as far as `shiftFor` says, every number fits into the 53 bits of a mantissa. -/
theorem shiftRight_shiftFor_lt (n : Nat) : n >>> shiftFor n < 9007199254740992 := by
  rw [Nat.shiftRight_eq_div_pow]
  show n / 2 ^ shiftFor n < 2 ^ 53
  rw [Nat.div_lt_iff_lt_mul (Nat.two_pow_pos _), ← Nat.pow_add]
  refine Nat.lt_of_lt_of_le Nat.lt_log2_self (Nat.pow_le_pow_right (by decide) ?_)
  unfold shiftFor
  omega

/-- `shiftFor` says no more than it has to: a number that is shifted at all fills the 53 bits. -/
theorem shiftFor_eq_zero_or (n : Nat) :
    shiftFor n = 0 ∨ 4503599627370496 ≤ n >>> shiftFor n := by
  by_cases h : n.log2 ≤ 52
  · exact .inl (by unfold shiftFor; omega)
  · right
    rw [Nat.shiftRight_eq_div_pow]
    show 2 ^ 52 ≤ n / 2 ^ shiftFor n
    rw [Nat.le_div_iff_mul_le (Nat.two_pow_pos _), ← Nat.pow_add]
    have hn : n ≠ 0 := by
      rintro rfl
      simp at h
    have e : 52 + shiftFor n = n.log2 := by unfold shiftFor; omega
    rw [e]
    exact Nat.log2_self_le hn

/-- Parts within the bounds of a double make one. -/
theorem ofParts?_isSome {negative : Bool} {mantissa shift : Nat}
    (hm : mantissa < 9007199254740992) (hs : shift ≤ 2045)
    (hc : shift = 0 ∨ 4503599627370496 ≤ mantissa) :
    (ofParts? negative mantissa shift).isSome := by
  rw [ofParts?, dif_pos ⟨hm, hs, hc⟩]
  rfl

/-- Below half of the range there is always a nearest double. -/
theorem ofUnits_isSome (negative : Bool) (num den : Nat) (h : (num / den).log2 < 2097) :
    (ofUnits negative num den).isSome := by
  have hs : shiftFor (num / den) ≤ 2044 := by
    unfold shiftFor
    omega
  have hq : num / (den <<< shiftFor (num / den)) = (num / den) >>> shiftFor (num / den) := by
    rw [Nat.shiftLeft_eq, Nat.shiftRight_eq_div_pow, Nat.div_div_eq_div_mul]
  have hlt := shiftRight_shiftFor_lt (num / den)
  have hlo := le_roundHalfEven num (den <<< shiftFor (num / den))
  have hhi := roundHalfEven_le num (den <<< shiftFor (num / den))
  rw [hq] at hlo hhi
  simp only [ofUnits]
  split
  · -- The mantissa was rounded up to `2^53`.
    exact ofParts?_isSome (by decide) (by omega) (.inr (Nat.le_refl _))
  · next hne =>
    refine ofParts?_isSome (by omega) (by omega) ?_
    rcases shiftFor_eq_zero_or (num / den) with h0 | h0
    · exact .inl h0
    · exact .inr (by omega)

/-- The units of a double are shifted back by the double's own shift. This is what the canonical
form is for: with a smaller mantissa the shift could not be told from the units. -/
theorem shiftFor_units (x : Binary64) : shiftFor x.units = x.shift := by
  unfold units shiftFor
  rcases x.canonical with h | h
  · have hlog : x.mantissa.log2 ≤ 52 := by
      by_cases h0 : x.mantissa = 0
      · simp [h0]
      · exact Nat.lt_succ_iff.1 ((Nat.log2_lt h0).2 x.mantissa_lt)
    rw [h, Nat.shiftLeft_zero]
    omega
  · have h0 : x.mantissa ≠ 0 := by
      intro e
      rw [e] at h
      exact absurd h (by decide)
    have hpos := Nat.two_pow_pos x.shift
    rw [Nat.shiftLeft_eq]
    have hlog : (x.mantissa * 2 ^ x.shift).log2 = 52 + x.shift := by
      refine (Nat.log2_eq_iff (Nat.mul_ne_zero h0 (by omega))).2 ⟨?_, ?_⟩
      · rw [Nat.pow_add]
        exact Nat.mul_le_mul_right _ h
      · rw [show 52 + x.shift + 1 = 53 + x.shift by omega, Nat.pow_add]
        exact Nat.mul_lt_mul_of_pos_right x.mantissa_lt hpos
    omega

/-- Rounding gives a double back when the quotient is its exact value. -/
theorem ofUnits_units (x : Binary64) (den : Nat) (h : 0 < den) :
    ofUnits x.negative (x.units * den) den = some x := by
  have hm : roundHalfEven (x.units * den) (den <<< x.shift) = x.mantissa := by
    have e : x.units * den = x.mantissa * (den <<< x.shift) := by
      unfold units
      rw [Nat.shiftLeft_eq, Nat.shiftLeft_eq, Nat.mul_right_comm, Nat.mul_assoc]
    rw [e]
    refine roundHalfEven_mul _ _ ?_
    rw [Nat.shiftLeft_eq]
    exact Nat.mul_pos h (Nat.two_pow_pos _)
  have hlt := x.mantissa_lt
  simp only [ofUnits, Nat.mul_div_cancel _ h, shiftFor_units, hm]
  rw [if_neg (by omega)]
  rw [ofParts?, dif_pos ⟨x.mantissa_lt, x.shift_le, x.canonical⟩]

end Binary64

end EdgeGuard
