import EdgeGuard.Json.Read

/-!
# `EdgeGuard.Proofs.Json.Strings`: a written string reads back

`writeString` escapes character by character, and `stringBody` walks over the text with a place
that says where inside an escape it stands. `stringBody_escape` is the step: the escape of one
character brings the reader back to the plain place, with that character kept.
`string_writeString` follows by induction on the text.

The control characters without a short form are written as a code unit of four digits. They are
the only ones for which the reader looks ahead (`bytesAhead`) and puts digits together
(`hexValue?`); `stringBody_unit` is that case on its own.
-/

set_option autoImplicit false

namespace EdgeGuard.Json

/-- A digit below sixteen is read as its value. -/
theorem hexValue?_hexDigit (n : Nat) (h : n < 16) : hexValue? (hexDigit n) = some n := by
  have key : ∀ n < 16, hexValue? (hexDigit n) = some n := by decide
  exact key n h

/-- Every character takes at least one byte, so as many characters are as many bytes ahead. The
reader counts bytes where an escape is cut off, and the writer never cuts one off. -/
theorem bytesAhead_of_le_length {count : Nat} {cs : List Char} (h : count ≤ cs.length) :
    bytesAhead count cs = true := by
  induction cs generalizing count with
  | nil =>
    have hzero : count = 0 := by simpa using h
    subst hzero
    rfl
  | cons c cs ih =>
    cases count with
    | zero => rfl
    | succ count =>
      have hsize := c.utf8Size_pos
      rw [List.length_cons] at h
      exact ih (by omega)

/-- The short escape of a character that has one is read as that character. -/
theorem stringBody_shortEscape {letter c : Char} (h : shortEscape? letter = some c)
    (cs : List Char) :
    stringBody .plain ('\\' :: letter :: cs) = keep c (stringBody .plain cs) := by
  rw [stringBody]
  rw [if_neg (by decide), if_pos rfl, stringBody]
  simp only [h]

/-- A code unit below `0x20` is read as its character. These are the only units that the writer
uses, so pairs of surrogates do not come up in written text. -/
theorem stringBody_unit (n : Nat) (h : n < 32) (cs : List Char) :
    stringBody .plain ('\\' :: 'u' :: '0' :: '0' :: hexDigit (n / 16) :: hexDigit (n % 16) :: cs)
      = keep (Char.ofNat n) (stringBody .plain cs) := by
  have hhigh : n / 16 < 16 := by omega
  have hlow : n % 16 < 16 := by omega
  have hahead : bytesAhead 4 ('0' :: '0' :: hexDigit (n / 16) :: hexDigit (n % 16) :: cs)
      = true := bytesAhead_of_le_length (by simp)
  have hzero : hexValue? '0' = some 0 := by decide
  have hn : (0 * 16 + n / 16) * 16 + n % 16 = n := by omega
  rw [stringBody, if_neg (by decide), if_pos rfl, stringBody]
  rw [show shortEscape? 'u' = none by decide]
  simp only [ne_eq, not_true_eq_false, if_false, hahead, if_true]
  -- The four digits, one after the other.
  rw [stringBody]
  simp only [hzero]
  rw [stringBody]
  simp only [hzero]
  rw [stringBody]
  simp only [hexValue?_hexDigit _ hhigh]
  rw [stringBody]
  simp only [hexValue?_hexDigit _ hlow, Nat.zero_mul, Nat.zero_add]
  rw [Nat.zero_mul, Nat.zero_add] at hn
  rw [hn, if_neg, if_neg]
  · simp [isLead]
    omega
  · simp [isTrail]
    omega

/-- The escape of a character is read as that character. There are three kinds: a short escape, a
unit for other control characters, and the character itself. -/
theorem stringBody_escape (c : Char) (cs : List Char) :
    stringBody .plain (escape c ++ cs) = keep c (stringBody .plain cs) := by
  unfold escape
  split
  · next h => subst h; exact stringBody_shortEscape (by decide) cs
  split
  · next h => subst h; exact stringBody_shortEscape (by decide) cs
  split
  · next h => subst h; exact stringBody_shortEscape (by decide) cs
  split
  · next h => subst h; exact stringBody_shortEscape (by decide) cs
  split
  · next h => subst h; exact stringBody_shortEscape (by decide) cs
  split
  · next h => subst h; exact stringBody_shortEscape (by decide) cs
  split
  · next h => subst h; exact stringBody_shortEscape (by decide) cs
  split
  · next h =>
    have hunit := stringBody_unit c.toNat h cs
    rw [Char.ofNat_toNat] at hunit
    exact hunit
  · next hquote hslash _ _ _ _ _ hcontrol =>
    show stringBody .plain (c :: cs) = _
    rw [stringBody, if_neg hquote, if_neg hslash, if_neg hcontrol]

/-- What stands between the quotes of a written string is read up to and with the closing
quote. -/
theorem stringBody_flatMap_escape (text rest : List Char) :
    stringBody .plain (text.flatMap escape ++ '"' :: rest) = .ok (text, rest) := by
  induction text with
  | nil => simp [stringBody]
  | cons c text ih =>
    rw [List.flatMap_cons, List.append_assoc, stringBody_escape, ih]
    rfl

/-- A written string is read back behind its opening quote. -/
theorem string_writeString (text : String) (rest : List Char) :
    string (text.toList.flatMap escape ++ '"' :: rest) = .ok (text, rest) := by
  unfold string
  rw [stringBody_flatMap_escape]
  show Except.ok (String.ofList text.toList, rest) = _
  rw [String.ofList_toList]

end EdgeGuard.Json
