import EdgeGuard.Number.Basic

/-!
# `EdgeGuard.Proofs.Number.Rounding`: the order of rounded integers

A condition compares an integer as the double nearest to it. A double has 53 binary digits, so large
neighbours may become one number. Rounding never turns two integers around, and it leaves the
integers up to `2^53` as they are.

* `rounded_mono`: a larger magnitude is not rounded to a smaller one. With one shift this is the
  order of rounded quotients. With two shifts the magnitudes are kept apart by the power of two
  between them, which is a double (`rounded_le`, `le_rounded`).
* `rounded_shiftLeft`: a magnitude of 53 binary digits with zeros behind is its own rounding.
* `scaled_int_mono`, `scaled_int_exact`: the same of integers with a sign.
* `compare_scaled_int`: an integer below `2^53` is told apart from every other integer. Its
  neighbours are doubles too, and beyond them the order is kept (`scaled_int_lt`).
-/

set_option autoImplicit false

namespace EdgeGuard

/-- A larger numerator is not rounded to a smaller integer. Each is rounded to the integer below its
quotient or to the one above, and between the same two integers the remainders decide. -/
theorem roundHalfEven_mono {a b : Nat} (den : Nat) (h : a ≤ b) :
    roundHalfEven a den ≤ roundHalfEven b den := by
  by_cases hquotient : a / den = b / den
  · -- Between the same integers it is the remainder that decides.
    have hremainder : a % den ≤ b % den := by
      have ha := Nat.div_add_mod a den
      have hb := Nat.div_add_mod b den
      rw [hquotient] at ha
      omega
    have ha := roundHalfEven_le a den
    have hb := le_roundHalfEven b den
    by_cases hup : den < 2 * (b % den)
    · have hroundUp : roundHalfEven b den = b / den + 1 := by
        rw [roundHalfEven, if_neg (by omega), if_pos hup]
      omega
    · by_cases hdown : 2 * (a % den) < den
      · have hroundDown : roundHalfEven a den = a / den := if_pos hdown
        omega
      · -- Both are halves, of one quotient.
        have hhalf : a % den = b % den := by omega
        have hsame : roundHalfEven a den = roundHalfEven b den := by
          rw [roundHalfEven, roundHalfEven, hquotient, hhalf]
        exact Nat.le_of_eq hsame
  · have hle : a / den ≤ b / den := Nat.div_le_div_right h
    calc roundHalfEven a den ≤ a / den + 1 := roundHalfEven_le a den
      _ ≤ b / den := by omega
      _ ≤ roundHalfEven b den := le_roundHalfEven b den

namespace Binary64

/-! ### Magnitudes -/

/-- The magnitude nearest to a whole number of units that a mantissa and a shift can have. -/
def rounded (n : Nat) : Nat := roundHalfEven n (1 <<< shiftFor n) <<< shiftFor n

/-- Half of `2^53` at the next shift. -/
theorem half_shiftLeft (s : Nat) : 4503599627370496 <<< (s + 1) = 9007199254740992 <<< s := by
  rw [Nat.add_comm, Nat.shiftLeft_add]
  rfl

/-- A shift to the left keeps the order. -/
theorem shiftLeft_le {m n : Nat} (h : m ≤ n) (s : Nat) : m <<< s ≤ n <<< s := by
  rw [Nat.shiftLeft_eq, Nat.shiftLeft_eq]
  exact Nat.mul_le_mul_right _ h

/-- Rounding whole units gives a double of the rounded magnitude. A mantissa that was rounded up to
`2^53` is half as large at the next shift. So the magnitude is `rounded` in either case, and the
sign is left as it was. -/
theorem units_of_ofUnits {negative : Bool} {n : Nat} {x : Binary64}
    (h : ofUnits negative n 1 = some x) : x.negative = negative ∧ x.units = rounded n := by
  -- Whatever the parts are, a double has their sign and their magnitude.
  have hparts : ∀ {mantissa shift : Nat}, ofParts? negative mantissa shift = some x →
      x.negative = negative ∧ x.units = mantissa <<< shift := by
    intro mantissa shift hx
    unfold ofParts? at hx
    split at hx
    · cases hx
      exact ⟨rfl, rfl⟩
    · cases hx
  simp only [ofUnits, Nat.div_one] at h
  split at h
  · next hcarry =>
    obtain ⟨hnegative, hunits⟩ := hparts h
    refine ⟨hnegative, hunits.trans ?_⟩
    rw [rounded, hcarry]
    exact half_shiftLeft (shiftFor n)
  · exact hparts h

/-- A larger magnitude is not shifted less. -/
theorem shiftFor_mono {m n : Nat} (h : m ≤ n) : shiftFor m ≤ shiftFor n := by
  -- The logarithm of zero is zero, so the bound on powers does not cover it.
  by_cases hm : m = 0
  · rw [hm]
    exact Nat.zero_le _
  · have hlog : m.log2 ≤ n.log2 :=
      (Nat.le_log2 (by omega)).2 (Nat.le_trans (Nat.log2_self_le hm) h)
    unfold shiftFor
    omega

/-- Dividing by a shifted one is a shift to the right. -/
theorem div_eq_shiftRight (n s : Nat) : n / (1 <<< s) = n >>> s := by
  rw [Nat.one_shiftLeft, Nat.shiftRight_eq_div_pow]

/-- No magnitude is rounded beyond the power of two above it. -/
theorem rounded_le (n : Nat) : rounded n ≤ 9007199254740992 <<< shiftFor n := by
  have hquotient := shiftRight_shiftFor_lt n
  have hround := roundHalfEven_le n (1 <<< shiftFor n)
  rw [div_eq_shiftRight] at hround
  exact shiftLeft_le (by omega) _

/-- No magnitude is rounded below the power of two under it. -/
theorem le_rounded {n : Nat} (h : 0 < shiftFor n) :
    4503599627370496 <<< shiftFor n ≤ rounded n := by
  have hround := le_roundHalfEven n (1 <<< shiftFor n)
  rw [div_eq_shiftRight] at hround
  rcases shiftFor_eq_zero_or n with hzero | hquotient
  · omega
  · exact shiftLeft_le (Nat.le_trans hquotient hround) _

/-- A larger magnitude is not rounded to a smaller one. With one shift it is `roundHalfEven_mono`.
With two, the powers of two between the magnitudes keep their roundings apart. -/
theorem rounded_mono {m n : Nat} (h : m ≤ n) : rounded m ≤ rounded n := by
  have hshift := shiftFor_mono h
  by_cases hsame : shiftFor m = shiftFor n
  · rw [rounded, rounded, hsame]
    exact shiftLeft_le (roundHalfEven_mono _ h) _
  · -- The power of two between the shifts lies between the magnitudes.
    have hbetween : 9007199254740992 <<< shiftFor m ≤ 4503599627370496 <<< shiftFor n := by
      rw [← half_shiftLeft, Nat.shiftLeft_eq, Nat.shiftLeft_eq]
      exact Nat.mul_le_mul_left _ (Nat.pow_le_pow_right (by decide) (by omega))
    calc rounded m ≤ 9007199254740992 <<< shiftFor m := rounded_le m
      _ ≤ 4503599627370496 <<< shiftFor n := hbetween
      _ ≤ rounded n := le_rounded (by omega)

/-- Zeros behind a number come on top of its binary digits. -/
theorem log2_shiftLeft_lt {n digits : Nat} (h : n < 1 <<< digits) (hdigits : 0 < digits) (s : Nat) :
    (n <<< s).log2 < digits + s := by
  by_cases hzero : n <<< s = 0
  · rw [hzero, Nat.log2_zero]
    omega
  · rw [Nat.log2_lt hzero, Nat.shiftLeft_eq, Nat.pow_add]
    rw [Nat.one_shiftLeft] at h
    exact Nat.mul_lt_mul_of_pos_right h (Nat.two_pow_pos s)

/-- A magnitude of 53 binary digits with zeros behind is its own rounding. There is nothing to round
away, since the shift is at most the number of zeros. -/
theorem rounded_shiftLeft {m : Nat} (hm : m < 9007199254740992) (s : Nat) :
    rounded (m <<< s) = m <<< s := by
  have hshift : shiftFor (m <<< s) ≤ s := by
    have hdigits : m < 1 <<< 53 := Nat.lt_of_lt_of_le hm (by decide)
    have hlog := log2_shiftLeft_lt hdigits (by decide) s
    unfold shiftFor
    omega
  generalize hn : m <<< s = n at hshift ⊢
  -- The shift that fills the mantissa is at most `s`, so nothing is cut off.
  have hwhole : n = m <<< (s - shiftFor n) * 1 <<< shiftFor n := by
    have hsplit : m <<< (s - shiftFor n + shiftFor n) = n := by
      rw [Nat.sub_add_cancel hshift, hn]
    rw [Nat.one_shiftLeft, ← Nat.shiftLeft_eq, ← Nat.shiftLeft_add, hsplit]
  have hpos : 0 < 1 <<< shiftFor n := by
    rw [Nat.one_shiftLeft]
    exact Nat.two_pow_pos _
  have hround : roundHalfEven n (1 <<< shiftFor n) = m <<< (s - shiftFor n) := by
    calc roundHalfEven n (1 <<< shiftFor n)
        = roundHalfEven (m <<< (s - shiftFor n) * 1 <<< shiftFor n) (1 <<< shiftFor n) := by
          rw [← hwhole]
      _ = m <<< (s - shiftFor n) := roundHalfEven_mul _ _ hpos
  rw [rounded, hround, ← Nat.shiftLeft_add, Nat.sub_add_cancel hshift, hn]

/-- The units of an integer are its binary digits with zeros behind. -/
theorem mul_one_eq_shiftLeft (n : Nat) : n * one = n <<< places := by
  rw [one, Nat.one_shiftLeft, Nat.shiftLeft_eq]

/-- There are units in one. -/
theorem one_pos : 0 < one := by
  rw [one, Nat.one_shiftLeft]
  exact Nat.two_pow_pos places

/-- An integer up to `2^53` is its own rounding. -/
theorem rounded_integer {n : Nat} (h : n ≤ 9007199254740992) :
    rounded (n <<< places) = n <<< places := by
  by_cases hlt : n < 9007199254740992
  · exact rounded_shiftLeft hlt places
  · -- The bound has 54 binary digits, the last of them zero.
    have hn : n = 9007199254740992 := by omega
    rw [hn, ← half_shiftLeft]
    exact rounded_shiftLeft (by decide) (places + 1)

/-- An integer of 64 bits is far below the largest double. -/
theorem log2_integer_lt {n : Nat} (h : n ≤ 18446744073709551616) :
    (n * one).log2 < 2097 := by
  have hdigits : n < 1 <<< 65 := Nat.lt_of_le_of_lt h (by decide)
  have hlog := log2_shiftLeft_lt hdigits (by decide) places
  rw [mul_one_eq_shiftLeft]
  exact Nat.lt_of_lt_of_le hlog (by decide)

end Binary64

namespace Number

open Binary64

/-! ### Integers -/

/-- An integer that 64 bits hold, with a sign or without one. -/
abbrev Fits (value : Int) : Prop := -9223372036854775808 ≤ value ∧ value < 18446744073709551616

/-- An integer of 64 bits as a double: its rounded magnitude with its sign. -/
theorem scaled_int {value : Int} (h : Fits value) :
    (Number.int value h).scaled
      = if value < 0 then -(rounded (value.natAbs <<< places) : Int)
        else rounded (value.natAbs <<< places) := by
  -- The nearest double exists, so the default of `nearest` is not reached.
  have hsome : (ofUnits (value < 0) (value.natAbs * one) 1).isSome :=
    ofUnits_isSome _ _ _ (by rw [Nat.div_one]; exact log2_integer_lt (by omega))
  obtain ⟨x, hx⟩ := Option.isSome_iff_exists.1 hsome
  obtain ⟨hnegative, hunits⟩ := units_of_ofUnits hx
  have hnearest : nearest value = x := by rw [nearest, hx, Option.getD_some]
  show (nearest value).scaled = _
  rw [hnearest, Binary64.scaled, hnegative, hunits, mul_one_eq_shiftLeft]
  simp only [decide_eq_true_eq]

/-- Rounding does not turn two integers around. For negative integers the magnitudes are in the
reverse order, and so are their negations. -/
theorem scaled_int_mono {a b : Int} (ha : Fits a) (hb : Fits b) (h : a ≤ b) :
    (Number.int a ha).scaled ≤ (Number.int b hb).scaled := by
  rw [scaled_int, scaled_int]
  by_cases hnegative : b < 0
  · -- Of two negative integers the larger one has the smaller magnitude.
    have hmagnitude : rounded (b.natAbs <<< places) ≤ rounded (a.natAbs <<< places) :=
      rounded_mono (shiftLeft_le (by omega) places)
    rw [if_pos (by omega), if_pos hnegative]
    omega
  · rw [if_neg hnegative]
    by_cases hleft : a < 0
    · -- A negative integer has a value that is not positive, and `b` one that is not negative.
      rw [if_pos hleft]
      omega
    · have hmagnitude : rounded (a.natAbs <<< places) ≤ rounded (b.natAbs <<< places) :=
        rounded_mono (shiftLeft_le (by omega) places)
      rw [if_neg hleft]
      omega

/-- An integer up to `2^53` is a double. Both bounds belong to it, as `2^53` has a single binary
digit. -/
theorem scaled_int_exact {value : Int} (h : Fits value)
    (hsmall : value.natAbs ≤ 9007199254740992) :
    (Number.int value h).scaled = value * (one : Int) := by
  rw [scaled_int, rounded_integer hsmall, ← mul_one_eq_shiftLeft, Int.natCast_mul]
  split
  · next hnegative =>
    have hvalue : (value.natAbs : Int) = -value := by omega
    rw [hvalue, Int.neg_mul, Int.neg_neg]
  · next hnonnegative =>
    have hvalue : (value.natAbs : Int) = value := by omega
    rw [hvalue]

/-- An integer below `2^53` is told apart from every other integer. The one that is below the bound
has a neighbour that is a double too, and the other one lies at or beyond this neighbour. -/
theorem scaled_int_lt {a b : Int} (ha : Fits a) (hb : Fits b)
    (hsmall : a.natAbs < 9007199254740992 ∨ b.natAbs < 9007199254740992) (h : a < b) :
    (Number.int a ha).scaled < (Number.int b hb).scaled := by
  have hone := Binary64.one_pos
  rcases hsmall with hsmall | hsmall
  · -- The integer above `a` is a double too, and `b` is not rounded below it.
    have hnext : Fits (a + 1) := by omega
    have hmono := scaled_int_mono hnext hb h
    rw [scaled_int_exact hnext (by omega), Int.add_mul, Int.one_mul] at hmono
    rw [scaled_int_exact ha (by omega)]
    omega
  · have hprevious : Fits (b - 1) := by omega
    have hmono := scaled_int_mono ha hprevious (by omega)
    rw [scaled_int_exact hprevious (by omega), Int.sub_mul, Int.one_mul] at hmono
    rw [scaled_int_exact hb (by omega)]
    omega

/-- Doubles that are nearest to integers are in the order of the integers, when one of these is below
`2^53`. -/
theorem compare_scaled_int {a b : Int} (ha : Fits a) (hb : Fits b)
    (hsmall : a.natAbs < 9007199254740992 ∨ b.natAbs < 9007199254740992) :
    compare (Number.int a ha).scaled (Number.int b hb).scaled = compare a b := by
  rcases Int.lt_trichotomy a b with hlt | heq | hgt
  · rw [Int.compare_eq_lt.2 hlt, Int.compare_eq_lt.2 (scaled_int_lt ha hb hsmall hlt)]
  · subst heq
    rw [Int.compare_eq_eq.2 rfl, Int.compare_eq_eq.2 rfl]
  · rw [Int.compare_eq_gt.2 hgt, Int.compare_eq_gt.2 (scaled_int_lt hb ha hsmall.symm hgt)]

end Number

end EdgeGuard
