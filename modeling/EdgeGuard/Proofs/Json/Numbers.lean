import EdgeGuard.Json.Read

/-!
# `EdgeGuard.Proofs.Json.Numbers`: a written number reads back

Integers are written as their digits. A double is written as the shortest decimal that names it,
in one of three layouts: whole digits with `.0` behind them, digits around a point, or a mantissa
with an exponent. The reader puts digits and exponent together again as a decimal and rounds it.

* `digitsValue_digitsOf`: the digits of a number have that number as their value.
* `number_decimal`: the text of a decimal, in any layout, is read as the double that the
  decimal names. Only the first layout changes the decimal, by a power of ten that
  `toBinary64?_tens` takes out again.
* `number_chars`: the text of a number is read as that number.

What follows a number must not extend it. `Ends rest` says so of the characters behind it.
-/

set_option autoImplicit false

namespace EdgeGuard

/-! ### Rounding a scaled quotient -/

/-- A common factor does not change a rounded quotient. The two comparisons with half of the divisor
are scaled along with it. -/
theorem roundHalfEven_mul_right (num den k : Nat) (hk : 0 < k) :
    roundHalfEven (num * k) (den * k) = roundHalfEven num den := by
  unfold roundHalfEven
  have hlow : 2 * (num % den * k) < den * k ↔ 2 * (num % den) < den := by
    rw [← Nat.mul_assoc]
    exact Nat.mul_lt_mul_right hk
  have hhigh : den * k < 2 * (num % den * k) ↔ den < 2 * (num % den) := by
    rw [← Nat.mul_assoc]
    exact Nat.mul_lt_mul_right hk
  rw [Nat.mul_mod_mul_right, Nat.mul_div_mul_right _ _ hk]
  simp only [hlow, hhigh]

namespace Binary64

/-- A common factor does not change the double nearest to a quotient. -/
theorem ofUnits_mul_right (negative : Bool) (num den k : Nat) (hk : 0 < k) :
    ofUnits negative (num * k) (den * k) = ofUnits negative num den := by
  unfold ofUnits
  have hshift (s : Nat) : (den * k) <<< s = den <<< s * k := by
    rw [Nat.shiftLeft_eq, Nat.shiftLeft_eq, Nat.mul_right_comm]
  simp only [Nat.mul_div_mul_right _ _ hk, hshift, roundHalfEven_mul_right _ _ _ hk]

end Binary64

namespace Decimal

/-- Zeros at the end of the digits, taken back by one decimal place less than there are zeros, name
the same double. The bound on the places is that of `Decimal.toBinary64?`. Below it both decimals
come to one quotient, up to a factor of ten above and below. -/
theorem toBinary64?_tens (negative : Bool) (digits places : Nat) (h : places < 310) :
    toBinary64? ⟨negative, digits * Nat.pow 10 (places + 1), -1⟩
      = toBinary64? ⟨negative, digits, (places : Nat)⟩ := by
  have hpos : 0 < Nat.pow 10 (places + 1) := Nat.pow_pos (by decide)
  unfold toBinary64?
  by_cases hd : digits = 0
  · simp [hd]
  · have hne : digits * Nat.pow 10 (places + 1) ≠ 0 := Nat.mul_ne_zero hd (by omega)
    rw [if_neg hne, if_neg (by simp), if_neg (by simp only; omega), if_neg (by simp)]
    rw [if_neg hd, if_neg (by simp only; omega), if_neg (by simp only; omega), if_pos (by simp)]
    have hnum : digits * Nat.pow 10 (places + 1) * Binary64.one
        = digits * Nat.pow 10 places * Binary64.one * 10 := by
      show digits * (Nat.pow 10 places * 10) * Binary64.one = _
      rw [← Nat.mul_assoc, Nat.mul_right_comm]
    show Binary64.ofUnits negative _ (1 * 10) = _
    rw [hnum, Binary64.ofUnits_mul_right _ _ _ _ (by decide)]
    rfl

end Decimal

namespace Json

/-! ### Digits -/

/-- The reader takes the same characters as digits as the library that writes them. -/
theorem isDigit_iff (c : Char) : isDigit c = true ↔ c.isDigit = true := by
  simp [isDigit, Char.isDigit, Char.le_def]

/-- The digits of a number are digits to the reader. -/
theorem isDigit_of_mem_digitsOf {n : Nat} {c : Char} (h : c ∈ Decimal.digitsOf n) :
    isDigit c = true :=
  (isDigit_iff c).2 (Nat.isDigit_of_mem_toDigits (by decide) (by decide) h)

/-- Digits behind others move those before them up by as many places. This is the step from the loop
of the reader, which starts at any number, to `digitsValue`, which starts at zero. -/
theorem foldl_digits (ds : List Char) (n : Nat) :
    ds.foldl (fun n c => n * 10 + (c.toNat - 48)) n
      = n * Nat.pow 10 ds.length + digitsValue ds := by
  induction ds generalizing n with
  | nil => simp [digitsValue]
  | cons c ds ih =>
    unfold digitsValue
    -- Both sides are folds from a number that is not zero, so the hypothesis is used for each.
    rw [List.foldl_cons, List.foldl_cons, ih, ih (0 * 10 + (c.toNat - 48))]
    rw [List.length_cons, Nat.zero_mul, Nat.zero_add, Nat.add_mul, Nat.mul_assoc, Nat.mul_comm 10]
    rw [← Nat.add_assoc]
    rfl

/-- The value of digits with others behind them, as in positional notation. -/
theorem digitsValue_append (as bs : List Char) :
    digitsValue (as ++ bs) = digitsValue as * Nat.pow 10 bs.length + digitsValue bs := by
  show (as ++ bs).foldl _ 0 = _
  rw [List.foldl_append, foldl_digits]
  rfl

/-- Zeros alone have no value, however many there are. -/
theorem digitsValue_zeros (k : Nat) : digitsValue (List.replicate k '0') = 0 := by
  induction k with
  | zero => rfl
  | succ k ih =>
    rw [List.replicate_succ', digitsValue_append, ih]
    rfl

/-- The digits of a number have that number as their value. So digits that the writer made stand for
the number that they were made of. -/
theorem digitsValue_digitsOf (n : Nat) : digitsValue (Decimal.digitsOf n) = n := by
  have hdigit : ∀ d < 10, digitsValue [Nat.digitChar d] = d := by decide
  -- The induction follows the division by ten: the last digit is the remainder.
  induction n using Nat.strongRecOn with
  | _ n ih =>
    unfold Decimal.digitsOf
    rw [Nat.toDigits_eq_if (by decide)]
    split
    · next h => exact hdigit n h
    · next h =>
      rw [digitsValue_append, hdigit (n % 10) (Nat.mod_lt n (by decide))]
      have hrest : digitsValue (Nat.toDigits 10 (n / 10)) = n / 10 := ih (n / 10) (by omega)
      rw [hrest]
      show n / 10 * 10 + n % 10 = n
      omega

/-- No number but zero starts with the digit zero. The reader refuses a zero in front of other
digits, and never meets one in a written number. -/
theorem head?_digitsOf {n : Nat} (h : n ≠ 0) : (Decimal.digitsOf n).head? ≠ some '0' := by
  have hdigit : ∀ d < 10, d ≠ 0 → Nat.digitChar d ≠ '0' := by decide
  -- The first digit is that of the quotient by ten, as long as there is one.
  induction n using Nat.strongRecOn with
  | _ n ih =>
    unfold Decimal.digitsOf
    rw [Nat.toDigits_eq_if (by decide)]
    split
    · next hlt =>
      rw [List.head?_cons]
      exact fun e => hdigit n hlt h (Option.some.inj e)
    · next hge =>
      have hhead := ih (n / 10) (by omega) (by omega)
      obtain ⟨c, cs, hcs⟩ : ∃ c cs, Nat.toDigits 10 (n / 10) = c :: cs :=
        List.exists_cons_of_ne_nil Nat.toDigits_ne_nil
      unfold Decimal.digitsOf at hhead
      rw [hcs, List.head?_cons] at hhead
      rwa [hcs, List.cons_append, List.head?_cons]

/-! ### What may follow a number -/

/-- No digit is ahead. -/
def NoDigit (rest : List Char) : Prop := ∀ c ∈ rest.head?, isDigit c = false

/-- What is ahead does not go on with a number. -/
def Ends (rest : List Char) : Prop :=
  ∀ c ∈ rest.head?, isDigit c = false ∧ c ≠ '.' ∧ c ≠ 'e' ∧ c ≠ 'E'

/-- What does not go on with a number does not go on with a digit either. -/
theorem Ends.noDigit {rest : List Char} (h : Ends rest) : NoDigit rest :=
  fun c hc => (h c hc).1

/-- A character that is no digit ends a run of digits. -/
theorem noDigit_cons {c : Char} (h : isDigit c = false) (rest : List Char) :
    NoDigit (c :: rest) := by
  intro d hd
  rw [List.head?_cons, Option.mem_some_iff] at hd
  exact hd ▸ h

/-- A run of digits is read as a whole when none follows it. The reader takes as many digits as
there are, so a digit behind the run would be taken along. -/
theorem digits_append {ds rest : List Char} (hne : ds ≠ []) (hds : ∀ c ∈ ds, isDigit c = true)
    (hrest : NoDigit rest) : digits (ds ++ rest) = .ok (ds, rest) := by
  have htake : (ds ++ rest).takeWhile isDigit = ds := by
    rw [List.takeWhile_append_of_pos hds]
    cases rest with
    | nil => simp
    | cons c rest => simp [hrest c rfl]
  have hdrop : (ds ++ rest).dropWhile isDigit = rest := by
    rw [List.dropWhile_append_of_pos hds]
    cases rest with
    | nil => simp
    | cons c rest => simp [hrest c rfl]
  unfold digits
  rw [htake, hdrop]
  cases ds with
  | nil => exact absurd rfl hne
  | cons d ds => rfl

/-- The digits of a number are read as they were written, where no digit follows. -/
theorem digits_digitsOf (n : Nat) {rest : List Char} (hrest : NoDigit rest) :
    digits (Decimal.digitsOf n ++ rest) = .ok (Decimal.digitsOf n, rest) :=
  digits_append Nat.toDigits_ne_nil (fun _ => isDigit_of_mem_digitsOf) hrest

/-! ### The parts of a number -/

/-- Digits that can stand before the point: at least one, and a zero in front only alone. -/
structure Whole (ds : List Char) : Prop where
  ne_nil : ds ≠ []
  digits : ∀ c ∈ ds, isDigit c = true
  lead : ds.head? = some '0' → ds.length = 1

/-- The digits of a number can stand before the point: only zero starts with a zero, and it is a
single digit. -/
theorem whole_digitsOf (n : Nat) : Whole (Decimal.digitsOf n) where
  ne_nil := Nat.toDigits_ne_nil
  digits := fun _ => isDigit_of_mem_digitsOf
  lead := by
    intro hhead
    by_cases h : n = 0
    · subst h
      rfl
    · exact absurd hhead (head?_digitsOf h)

/-- A single digit can stand before the point, also a zero. The mantissa of a scientific text has
one. -/
theorem whole_singleton {c : Char} (h : isDigit c = true) : Whole [c] where
  ne_nil := by simp
  digits := by simpa using h
  lead := fun _ => rfl

/-- The digits before the point are read as a whole: no zero in front of them is refused. -/
theorem wholeDigits_append {ds rest : List Char} (h : Whole ds) (hrest : NoDigit rest) :
    wholeDigits (ds ++ rest) = .ok (ds, rest) := by
  have hlead : ¬ (ds.head? = some '0' ∧ ds.length ≠ 1) := fun hbad => hbad.2 (h.lead hbad.1)
  unfold wholeDigits
  rw [digits_append h.ne_nil h.digits hrest]
  show (if ds.head? = some '0' ∧ ds.length ≠ 1 then _ else _) = _
  rw [if_neg hlead]
  rfl

/-- Digits behind a point are read with the point, up to what is no digit. -/
theorem fraction_point {ds rest : List Char} (hne : ds ≠ []) (hds : ∀ c ∈ ds, isDigit c = true)
    (hrest : NoDigit rest) : fraction ('.' :: (ds ++ rest)) = .ok (some ds, rest) := by
  rw [fraction, digits_append hne hds hrest]
  rfl

/-- Without a point there are no decimal places, and nothing is taken off the text. -/
theorem fraction_none {rest : List Char} (h : ∀ c ∈ rest.head?, c ≠ '.') :
    fraction rest = .ok (none, rest) := by
  unfold fraction
  split
  · exact absurd rfl (h '.' rfl)
  · rfl

/-- Without an exponent mark there is no exponent, and nothing is taken off the text. -/
theorem exponent_none {rest : List Char} (h : ∀ c ∈ rest.head?, c ≠ 'e' ∧ c ≠ 'E') :
    exponent rest = .ok (none, rest) := by
  cases rest with
  | nil => rfl
  | cons c rest =>
    have hc := h c rfl
    unfold exponent
    exact if_neg (by simp [hc.1, hc.2])

/-- A written exponent is read as its value. -/
theorem exponent_written (power : Int) {rest : List Char} (hrest : NoDigit rest) :
    exponent ('e' :: ((if 0 ≤ power then '+' :: Decimal.digitsOf power.toNat
      else '-' :: Decimal.digitsOf (-power).toNat) ++ rest)) = .ok (some power, rest) := by
  by_cases h : 0 ≤ power
  · rw [if_pos h, List.cons_append, exponent, if_pos (.inl rfl)]
    simp only [digits_digitsOf _ hrest]
    show Except.ok (some ((digitsValue (Decimal.digitsOf power.toNat) : Nat) : Int), rest) = _
    rw [digitsValue_digitsOf, Int.toNat_of_nonneg h]
  · rw [if_neg h, List.cons_append, exponent, if_pos (.inl rfl)]
    simp only [digits_digitsOf _ hrest]
    show Except.ok (some (-((digitsValue (Decimal.digitsOf (-power).toNat) : Nat) : Int)), rest) = _
    rw [digitsValue_digitsOf, Int.toNat_of_nonneg (by omega), Int.neg_neg]

/-- The parts of a number, read one after the other, make up the number. Each layout of a decimal is
a choice of the three parts, and is handled by saying what each part is read as. -/
theorem magnitude_parts {negative : Bool} {cs afterWhole afterPlaces rest whole : List Char}
    {places : Option (List Char)} {power : Option Int} {n : Number}
    (hwhole : wholeDigits cs = .ok (whole, afterWhole))
    (hplaces : fraction afterWhole = .ok (places, afterPlaces))
    (hpower : exponent afterPlaces = .ok (power, rest))
    (hnumber : assemble? negative whole places power = some n) :
    magnitude negative cs = .ok (n, rest) := by
  simp only [magnitude, hwhole, hplaces, hpower, hnumber, bind, Except.bind]

/-! ### The layouts of a decimal -/

/-- Digits around a point are read as the double that the decimal names. The decimal places count as
digits, and the exponent takes them back. -/
theorem magnitude_point {negative : Bool} {whole places rest : List Char} {x : Binary64}
    (hwhole : Whole whole) (hne : places ≠ []) (hplaces : ∀ c ∈ places, isDigit c = true)
    (hrest : Ends rest)
    (hx : Decimal.toBinary64? ⟨negative, digitsValue (whole ++ places), -(places.length : Int)⟩
      = some x) :
    magnitude negative (whole ++ '.' :: (places ++ rest)) = .ok (.float x, rest) := by
  refine magnitude_parts (wholeDigits_append hwhole (noDigit_cons (by decide) _))
    (fraction_point hne hplaces hrest.noDigit)
    (exponent_none fun c hc => ⟨(hrest c hc).2.2.1, (hrest c hc).2.2.2⟩) ?_
  show (Decimal.toBinary64? ⟨negative, digitsValue (whole ++ places),
    0 - (places.length : Int)⟩).map Number.float = _
  rw [Int.zero_sub, hx]
  rfl

/-- A mantissa and an exponent are read as the double that the decimal names. With more than one
digit in the mantissa a point stands behind the first, and the written exponent is larger than that
of the decimal by the number of places. -/
theorem magnitude_scientific {negative : Bool} {n : Nat} {exponent : Int} {rest : List Char}
    {x : Binary64} (hrest : Ends rest)
    (hx : Decimal.toBinary64? ⟨negative, n, exponent⟩ = some x) :
    magnitude negative (Decimal.scientificText (Decimal.digitsOf n)
        (exponent + (Decimal.digitsOf n).length - 1) ++ rest)
      = .ok (.float x, rest) := by
  have hvalue := digitsValue_digitsOf n
  have hdigits : ∀ c ∈ Decimal.digitsOf n, isDigit c = true := fun _ => isDigit_of_mem_digitsOf
  unfold Decimal.scientificText
  rw [List.append_assoc, List.cons_append]
  cases hds : Decimal.digitsOf n with
  | nil => exact absurd hds Nat.toDigits_ne_nil
  | cons c more =>
    rw [hds] at hvalue hdigits
    have hc : isDigit c = true := hdigits c List.mem_cons_self
    -- A single digit is written without a point, more digits with one behind the first.
    cases more with
    | nil =>
      refine magnitude_parts (wholeDigits_append (whole_singleton hc) (noDigit_cons (by decide) _))
        (fraction_none (by simp)) (exponent_written _ hrest.noDigit) ?_
      show (Decimal.toBinary64? ⟨negative, digitsValue ([c] ++ []),
        exponent + 1 - 1 - 0⟩).map Number.float = _
      rw [List.append_nil, hvalue, Int.add_sub_cancel, Int.sub_zero, hx]
      rfl
    | cons d more =>
      have hmore : ∀ c ∈ d :: more, isDigit c = true :=
        fun e he => hdigits e (List.mem_cons_of_mem c he)
      show magnitude negative ([c] ++ '.' :: ((d :: more) ++ 'e' :: _)) = _
      refine magnitude_parts (wholeDigits_append (whole_singleton hc) (noDigit_cons (by decide) _))
        (fraction_point (by simp) hmore (noDigit_cons (by decide) _))
        (exponent_written _ hrest.noDigit) ?_
      have hpower : exponent + ((c :: d :: more).length : Int) - 1 - ((d :: more).length : Int)
          = exponent := by
        rw [List.length_cons]
        omega
      show (Decimal.toBinary64? ⟨negative, digitsValue ([c] ++ d :: more),
        exponent + ((c :: d :: more).length : Int) - 1 - ((d :: more).length : Int)⟩).map
          Number.float = _
      rw [hpower, List.singleton_append, hvalue, hx]
      rfl

/-- Zeros behind the digits and a zero behind the point stand for a power of ten. The reader comes
to another decimal than the one that was written, with the zeros among its digits. Both name one
double by `toBinary64?_tens`. -/
theorem magnitude_zerosBehind {negative : Bool} {n zeros : Nat} {rest : List Char} {x : Binary64}
    (hrest : Ends rest) (hzero : n = 0 → zeros = 0) (hlarge : zeros < 310)
    (hx : Decimal.toBinary64? ⟨negative, n, (zeros : Nat)⟩ = some x) :
    magnitude negative
        (Decimal.digitsOf n ++ List.replicate zeros '0' ++ ['.', '0'] ++ rest)
      = .ok (.float x, rest) := by
  -- Zeros behind the digits of a number do not make its first digit a zero, unless it is zero.
  have hwhole : Whole (Decimal.digitsOf n ++ List.replicate zeros '0') := by
    refine ⟨by simp [Decimal.digitsOf], ?_, ?_⟩
    · intro c hc
      rcases List.mem_append.1 hc with hc | hc
      · exact isDigit_of_mem_digitsOf hc
      · rw [List.eq_of_mem_replicate hc]
        rfl
    · intro hhead
      by_cases hn : n = 0
      · subst hn
        rw [hzero rfl]
        rfl
      · have hlead := head?_digitsOf hn
        cases hds : Decimal.digitsOf n with
        | nil => exact absurd hds Nat.toDigits_ne_nil
        | cons c ds =>
          rw [hds] at hlead hhead
          exact absurd hhead hlead
  -- The zero behind the point counts as a digit, so the value is ten times the number.
  have hvalue : digitsValue (Decimal.digitsOf n ++ List.replicate zeros '0' ++ ['0'])
      = n * Nat.pow 10 (zeros + 1) := by
    rw [digitsValue_append, digitsValue_append, digitsValue_digitsOf, digitsValue_zeros,
      List.length_replicate, Nat.add_zero, Nat.mul_assoc]
    rfl
  have htext : Decimal.digitsOf n ++ List.replicate zeros '0' ++ ['.', '0'] ++ rest
      = (Decimal.digitsOf n ++ List.replicate zeros '0') ++ '.' :: (['0'] ++ rest) := by
    simp
  rw [htext]
  refine magnitude_point hwhole (by simp) (by simp [isDigit]) hrest ?_
  rw [hvalue]
  exact (Decimal.toBinary64?_tens negative n zeros hlarge).trans hx

/-- A point among the digits. The digits before and behind the point are those of the decimal again,
so the reader comes to the decimal itself. -/
theorem magnitude_pointInside {negative : Bool} {n places : Nat} {rest : List Char} {x : Binary64}
    (hrest : Ends rest) (hn : n ≠ 0) (hplaces : 0 < places)
    (hlt : places < (Decimal.digitsOf n).length)
    (hx : Decimal.toBinary64? ⟨negative, n, -(places : Int)⟩ = some x) :
    magnitude negative
        ((Decimal.digitsOf n).take ((Decimal.digitsOf n).length - places)
          ++ '.' :: (Decimal.digitsOf n).drop ((Decimal.digitsOf n).length - places) ++ rest)
      = .ok (.float x, rest) := by
  have hlead := head?_digitsOf hn
  have hdigits : ∀ c ∈ Decimal.digitsOf n, isDigit c = true := fun _ => isDigit_of_mem_digitsOf
  have hvalue := digitsValue_digitsOf n
  generalize Decimal.digitsOf n = ds at *
  -- The digits before the point start with the first of all, which is not zero.
  have hwhole : Whole (ds.take (ds.length - places)) := by
    refine ⟨?_, fun c hc => hdigits c (List.mem_of_mem_take hc), ?_⟩
    · intro hnil
      have hlen := congrArg List.length hnil
      rw [List.length_take, List.length_nil] at hlen
      omega
    · intro hhead
      rw [List.head?_take, if_neg (by omega)] at hhead
      exact absurd hhead hlead
  have hlength : (ds.drop (ds.length - places)).length = places := by
    rw [List.length_drop]
    omega
  have hne : ds.drop (ds.length - places) ≠ [] := by
    intro hnil
    rw [hnil] at hlength
    exact absurd hlength (Nat.ne_of_lt hplaces)
  rw [List.append_assoc, List.cons_append]
  refine magnitude_point hwhole hne (fun c hc => hdigits c (List.mem_of_mem_drop hc)) hrest ?_
  rw [List.take_append_drop, hvalue, hlength]
  exact hx

/-- Zeros between the point and the digits. The zeros have no value, and there are as many digits
behind the point as the exponent says. -/
theorem magnitude_zerosBefore {negative : Bool} {n places : Nat} {rest : List Char} {x : Binary64}
    (hrest : Ends rest) (hle : (Decimal.digitsOf n).length ≤ places)
    (hx : Decimal.toBinary64? ⟨negative, n, -(places : Int)⟩ = some x) :
    magnitude negative
        ('0' :: '.' :: (List.replicate (places - (Decimal.digitsOf n).length) '0'
          ++ Decimal.digitsOf n) ++ rest)
      = .ok (.float x, rest) := by
  have hdigits : ∀ c ∈ List.replicate (places - (Decimal.digitsOf n).length) '0'
      ++ Decimal.digitsOf n, isDigit c = true := by
    intro c hc
    rcases List.mem_append.1 hc with hc | hc
    · rw [List.eq_of_mem_replicate hc]
      rfl
    · exact isDigit_of_mem_digitsOf hc
  have hlength : (List.replicate (places - (Decimal.digitsOf n).length) '0'
      ++ Decimal.digitsOf n).length = places := by
    rw [List.length_append, List.length_replicate]
    omega
  have hvalue : digitsValue (['0'] ++ (List.replicate (places - (Decimal.digitsOf n).length) '0'
      ++ Decimal.digitsOf n)) = n := by
    rw [digitsValue_append, digitsValue_append, digitsValue_zeros, digitsValue_digitsOf]
    show 0 * _ + (0 * _ + n) = n
    omega
  -- The zero before the point stands alone, as the reader asks for.
  show magnitude negative (['0'] ++ '.' :: (_ ++ rest)) = _
  refine magnitude_point (whole_singleton (by decide)) ?_ hdigits hrest ?_
  · simp [Decimal.digitsOf]
  · rw [hvalue, hlength]
    exact hx

/-- Digits that are written without an exponent are read as the double that the decimal names. The
sign of the exponent decides between zeros behind the digits and a point, which stands among the
digits or in front of all of them. -/
theorem magnitude_plain {negative : Bool} {n : Nat} {exponent : Int} {rest : List Char}
    {x : Binary64} (hrest : Ends rest) (hzero : n = 0 → exponent = 0) (hlarge : exponent < 310)
    (hx : Decimal.toBinary64? ⟨negative, n, exponent⟩ = some x) :
    magnitude negative (Decimal.plainText (Decimal.digitsOf n) exponent ++ rest)
      = .ok (.float x, rest) := by
  unfold Decimal.plainText
  by_cases h : 0 ≤ exponent
  · rw [if_pos h]
    have hexponent : ((exponent.toNat : Nat) : Int) = exponent := Int.toNat_of_nonneg h
    rw [← hexponent] at hx
    exact magnitude_zerosBehind hrest (by omega) (by omega) hx
  · rw [if_neg h]
    have hexponent : -(((-exponent).toNat : Nat) : Int) = exponent := by omega
    rw [← hexponent] at hx
    -- The point stands among the digits, or zeros stand between it and them.
    by_cases hlt : (-exponent).toNat < (Decimal.digitsOf n).length
    · show magnitude negative ((if _ then _ else _) ++ rest) = _
      rw [if_pos hlt]
      exact magnitude_pointInside hrest (by omega) (by omega) hlt hx
    · show magnitude negative ((if _ then _ else _) ++ rest) = _
      rw [if_neg hlt]
      exact magnitude_zerosBefore hrest (by omega) hx

/-! ### Whole texts -/

/-- A number without a sign does not start with one, so it is read as it stands. -/
theorem number_of_magnitude {cs rest : List Char} {n : Number}
    (h : magnitude false cs = .ok (n, rest)) : number cs = .ok (n, rest) := by
  unfold number
  split
  · exact absurd h (by simp [magnitude, wholeDigits, digits, isDigit, bind, Except.bind])
  · exact h

/-- The text of a decimal is read as the double that the decimal names. The layout only chooses
between the plain and the scientific text. The bound on it keeps the zeros of a plain text to as
many as `toBinary64?_tens` takes out again. -/
theorem number_decimal {layout : Decimal.Layout} {d : Decimal} {rest : List Char} {x : Binary64}
    (hrest : Ends rest) (hlayout : layout.plainMax < 310) (hzero : d.digits = 0 → d.exponent = 0)
    (hx : d.toBinary64? = some x) :
    number (d.chars layout ++ rest) = .ok (.float x, rest) := by
  obtain ⟨negative, n, exponent⟩ := d
  simp only at hzero
  have hlen : 0 < (Decimal.digitsOf n).length := Nat.length_toDigits_pos
  have hmagnitude : magnitude negative
      ((if layout.plainMin ≤ exponent + (Decimal.digitsOf n).length - 1
          ∧ exponent + (Decimal.digitsOf n).length - 1 ≤ layout.plainMax then
        Decimal.plainText (Decimal.digitsOf n) exponent
      else Decimal.scientificText (Decimal.digitsOf n)
        (exponent + (Decimal.digitsOf n).length - 1)) ++ rest) = .ok (.float x, rest) := by
    split
    · exact magnitude_plain hrest hzero (by omega) hx
    · exact magnitude_scientific hrest hx
  unfold Decimal.chars
  cases negative with
  | true => exact hmagnitude
  | false => exact number_of_magnitude hmagnitude

/-- The shortest decimal of a double has zero as its digits only for a zero. A plain text of zero
with an exponent would show zeros that stand for nothing, which the reader refuses. -/
theorem exponent_shortest {x : Binary64} (h : x.shortest.digits = 0) :
    x.shortest.exponent = 0 := by
  have hx := Binary64.toBinary64?_shortest x
  have hzero : x.units = 0 := by
    rw [Decimal.toBinary64?, if_pos h] at hx
    rw [← Option.some.inj hx]
    rfl
  unfold Binary64.shortest
  rw [if_pos hzero]

/-- Digits without a point and an exponent are read as an integer. -/
theorem magnitude_integer {negative : Bool} {n : Nat} {rest : List Char} {number : Number}
    (hrest : Ends rest) (h : integerNumber? negative n = some number) :
    magnitude negative (Decimal.digitsOf n ++ rest) = .ok (number, rest) := by
  refine magnitude_parts (wholeDigits_append (whole_digitsOf n) hrest.noDigit)
    (fraction_none fun c hc => (hrest c hc).2.1)
    (exponent_none fun c hc => ⟨(hrest c hc).2.2.1, (hrest c hc).2.2.2⟩) ?_
  show integerNumber? negative (digitsValue (Decimal.digitsOf n)) = some number
  rw [digitsValue_digitsOf]
  exact h

/-- An integer of 64 bits with a sign of its own is read as it is. The reader keeps integers of this
range as integers, and takes a zero with a sign as a double instead. -/
theorem integerNumber?_eq {value : Int}
    (h : -9223372036854775808 ≤ value ∧ value < 18446744073709551616) :
    integerNumber? (decide (value < 0)) value.natAbs = some (.int value h) := by
  have hvalue : (if decide (value < 0) then -(value.natAbs : Int) else value.natAbs) = value := by
    by_cases hneg : value < 0
    · rw [if_pos (by simpa using hneg)]
      omega
    · rw [if_neg (by simpa using hneg)]
      omega
  -- Only a zero with a sign is no integer to the reader, and an integer has none.
  have hzero : (decide (value < 0) && value.natAbs == 0) = false := by
    by_cases hneg : value < 0
    · simp [hneg]
      omega
    · simp [hneg]
  have hexact : Number.ofInt? value = some (.int value h) := dif_pos h
  simp only [integerNumber?, hzero, hvalue, hexact, Bool.false_eq_true, if_false]

/-- The text of an integer of 64 bits is read as that integer. -/
theorem number_intChars {value : Int}
    (h : -9223372036854775808 ≤ value ∧ value < 18446744073709551616) {rest : List Char}
    (hrest : Ends rest) :
    number (Number.intChars value ++ rest) = .ok (.int value h, rest) := by
  have hinteger := integerNumber?_eq h
  unfold Number.intChars
  by_cases hneg : value < 0
  · rw [decide_eq_true hneg] at hinteger
    rw [if_pos hneg]
    exact magnitude_integer hrest hinteger
  · rw [decide_eq_false hneg] at hinteger
    rw [if_neg hneg]
    exact number_of_magnitude (magnitude_integer hrest hinteger)

/-- The text of a number is read as that number, where what follows does not extend it. An integer
is read as an integer and a double as a double, so the kind of a number comes back too and not just
its value. -/
theorem number_chars (n : Number) {rest : List Char} (hrest : Ends rest) :
    number (n.chars ++ rest) = .ok (n, rest) := by
  cases n with
  | int value h => exact number_intChars h hrest
  | float x =>
    exact number_decimal hrest (by decide) exponent_shortest (Binary64.toBinary64?_shortest x)

/-- What is read as a number starts with a digit or a sign. -/
theorem exists_cons_of_number {cs rest : List Char} {n : Number} (h : number cs = .ok (n, rest)) :
    ∃ c tail, cs = c :: tail ∧ (c = '-' ∨ isDigit c = true) := by
  cases cs with
  | nil => exact absurd h (by simp [number, magnitude, wholeDigits, digits, bind, Except.bind])
  | cons c tail =>
    refine ⟨c, tail, rfl, ?_⟩
    by_cases hminus : c = '-'
    · exact .inl hminus
    · refine .inr (Decidable.byContradiction fun hdigit => ?_)
      have hfalse : isDigit c = false := by simpa using hdigit
      simp [number, hminus, magnitude, wholeDigits, digits, hfalse, bind, Except.bind] at h

end Json

end EdgeGuard
