import EdgeGuard.Locale
import Mathlib.Data.List.Basic

/-!
# `EdgeGuard.Proofs.Locale`: the words of a language tell the operators apart

The words behind the first operand of a sentence are its mark. Marks share beginnings: "is greater
than" is one of "is greater than or equal to", and "大于" is one of "大于等于". In Chinese two
operators even have one mark, and only the closing word behind the second operand tells them apart.
Still every sentence has one operator:

* `mark_append_inj`: a mark ends where an operand or the end of the sentence follows. No mark goes
  on there, because no operand starts like the rest of a longer mark.
* `closing_append_inj`: operators with one mark are told apart by their closing words.
* `closing_append_ne`: a closing word is not taken for one more mark.

The languages have sixteen operators each, so these are finite checks behind the first step.
-/

set_option autoImplicit false

namespace EdgeGuard

/-- A character with which the words of an operand may start. No phrase is longer than another one
by a blank and such a character. -/
def OpensOperand (c : Char) : Prop := c ≠ ' ' ∧ c ≠ ')' ∧ c ≠ 'o'

/-- A sentence ends here: nothing follows, or the parenthesis around it. -/
def Closes (rest : List Char) : Prop := ∀ c ∈ rest.head?, c = ')'

/-- What may stand behind a mark: an operand, or the end of the sentence. -/
inductive FollowsMark : List Char → Prop
  | operand {c : Char} (h : OpensOperand c) (rest : List Char) : FollowsMark (' ' :: c :: rest)
  | closes {rest : List Char} (h : Closes rest) : FollowsMark rest

/-- Where a sentence ends, no other character than the parenthesis follows. -/
theorem Closes.ne_cons {rest : List Char} (h : Closes rest) {c : Char} (hc : c ≠ ')')
    (more : List Char) : rest ≠ c :: more := by
  rintro rfl
  exact hc (h c rfl)

/-- A sentence ends where the text does. -/
theorem closes_nil : Closes [] := by
  intro c hc
  cases hc

/-- A sentence ends in front of a parenthesis. -/
theorem closes_parenthesis (rest : List Char) : Closes (')' :: rest) := by
  intro c hc
  rw [List.head?_cons, Option.mem_some_iff] at hc
  exact hc.symm

namespace Locale

/-- The list of the languages misses none, so a check over the list is a check over all. -/
theorem mem_all (locale : Locale) : locale ∈ all := by
  cases locale <;> decide

/-- The words of an operator behind its first operand. The negation has its word in front, and no
other. -/
def mark (locale : Locale) : Operator → String
  | .and => locale.conjunction
  | .or => locale.disjunction
  | .isNull => locale.isNull
  | .isNotNull => locale.isNotNull
  | operator => (locale.phrase operator).middle

/-- The closing word of an operator, if it has one, with the blank before it. -/
def closing (locale : Locale) (operator : Operator) : List Char :=
  match (locale.phrase operator).closing with
  | some word => ' ' :: word.toList
  | none => []

/-! ### Marks -/

/-- A phrase goes on here: behind a blank with the letter o, or without a blank. -/
def goesOn : List Char → Bool
  | [] => false
  | c :: rest => (c == ' ' && rest.head? == some 'o') || (c != ' ' && c != ')')

/-- Whether a phrase goes on is seen from its next two characters, so what stands behind them does
not matter. A blank alone does not make it go on. -/
theorem goesOn_append {behind : List Char} (h : goesOn behind = true) (rest : List Char) :
    goesOn (behind ++ rest) = true := by
  match behind with
  | [] => cases h
  | [c] => simpa [goesOn] using .inr (by simpa [goesOn] using h)
  | c :: d :: more => exact h

/-- Where a phrase goes on, no operand follows and no sentence ends. -/
theorem not_followsMark_of_goesOn {rest : List Char} (h : goesOn rest = true) :
    ¬ FollowsMark rest := by
  intro hfollows
  cases hfollows with
  | @operand c hopens more =>
    obtain ⟨-, -, hletter⟩ := hopens
    simp [goesOn, hletter] at h
  | closes hcloses =>
    cases rest with
    | nil => cases h
    | cons c more =>
      rw [hcloses c rfl] at h
      simp [goesOn] at h

/-- A mark that another one starts with is the whole of it, or the other one goes on. -/
theorem goesOn_of_prefix (locale : Locale) (a b : Operator) {behind : List Char}
    (h : (locale.mark b).toList = (locale.mark a).toList ++ behind) :
    behind = [] ∨ goesOn behind = true := by
  have hall : ∀ locale ∈ Locale.all, ∀ a ∈ Operator.all, ∀ b ∈ Operator.all,
      (locale.mark a).toList <+: (locale.mark b).toList →
      (locale.mark b).toList.drop (locale.mark a).toList.length = [] ∨
        goesOn ((locale.mark b).toList.drop (locale.mark a).toList.length) = true := by
    decide +kernel
  have hcase := hall locale locale.mem_all a a.mem_all b b.mem_all ⟨behind, h.symm⟩
  -- What is left of the longer mark behind the shorter one is `behind`.
  rwa [h, List.drop_left] at hcase

/-- A mark that is read from the front of a text is the only one, and so is the rest. -/
theorem mark_append_inj (locale : Locale) {a b : Operator} {rest rest' : List Char}
    (hrest : FollowsMark rest) (hrest' : FollowsMark rest')
    (h : (locale.mark a).toList ++ rest = (locale.mark b).toList ++ rest') :
    locale.mark a = locale.mark b ∧ rest = rest' := by
  -- One of the two marks starts with the other one.
  rcases List.append_eq_append_iff.1 h with ⟨behind, hmark, hbehind⟩ | ⟨behind, hmark, hbehind⟩
  · rcases goesOn_of_prefix locale a b hmark with rfl | hgoes
    · rw [List.append_nil] at hmark
      exact ⟨(String.toList_inj.1 hmark).symm, hbehind⟩
    · rw [hbehind] at hrest
      exact absurd hrest (not_followsMark_of_goesOn (goesOn_append hgoes rest'))
  · rcases goesOn_of_prefix locale b a hmark with rfl | hgoes
    · rw [List.append_nil] at hmark
      exact ⟨String.toList_inj.1 hmark, hbehind.symm⟩
    · rw [hbehind] at hrest'
      exact absurd hrest' (not_followsMark_of_goesOn (goesOn_append hgoes rest))

/-! ### Closing words -/

/-- Operators with one mark have closing words of one length, and one of them if they are one. -/
theorem closing_append_inj (locale : Locale) {a b : Operator} {rest rest' : List Char}
    (hmark : locale.mark a = locale.mark b)
    (h : locale.closing a ++ rest = locale.closing b ++ rest') : a = b ∧ rest = rest' := by
  have hall : ∀ locale ∈ Locale.all, ∀ a ∈ Operator.all, ∀ b ∈ Operator.all,
      locale.mark a = locale.mark b →
      (locale.closing a).length = (locale.closing b).length ∧
        (locale.closing a = locale.closing b → a = b) := by
    decide +kernel
  obtain ⟨hlength, hsame⟩ := hall locale locale.mem_all a a.mem_all b b.mem_all hmark
  -- Of two equal texts with fronts of one length, the fronts are equal.
  obtain ⟨hclosing, hrest⟩ := List.append_inj h hlength
  exact ⟨hsame hclosing, hrest⟩

/-- Behind the last operand no operand follows a further mark: the closing word is none. -/
theorem closing_append_ne (locale : Locale) (operator : Operator) {rest : List Char}
    (h : Closes rest) (more : List Char) :
    locale.closing operator ++ rest ≠ ' ' :: ((locale.mark operator).toList ++ ' ' :: more) := by
  have hall : ∀ locale ∈ Locale.all, ∀ operator ∈ Operator.all,
      locale.closing operator = [] ∨
        (1 < (locale.closing operator).length ∧ 0 < (locale.mark operator).toList.length ∧
          (locale.closing operator)[1]? ≠ (locale.mark operator).toList[0]?) := by
    decide +kernel
  intro heq
  rcases hall locale locale.mem_all operator operator.mem_all with
    hnone | ⟨hclosing, hmark, hsecond⟩
  · rw [hnone] at heq
    exact h.ne_cons (by decide) _ heq
  · -- The closing word and the mark differ in their first characters.
    have hchars := congrArg (·[1]?) heq
    simp only [List.getElem?_append_left hclosing, List.getElem?_cons_succ,
      List.getElem?_append_left hmark] at hchars
    exact hsecond hchars

end Locale

end EdgeGuard
