/-!
# `EdgeGuard.Text.Search`: parts of a text

Where one text stands inside another, and the parts of a text between separators. Texts are
compared character by character.

* `Text.containsPart_iff` says when one text stands inside another.
* `Text.splitAt_ne_nil` says that a text has at least one part.
-/

set_option autoImplicit false

namespace EdgeGuard.Text

/-- Whether `part` stands somewhere inside the characters. -/
def containsPart (part : List Char) : List Char → Bool
  | [] => part.isEmpty
  | c :: cs => part.isPrefixOf (c :: cs) || containsPart part cs

/-- The parts of a list between separators: one part more than there are separators. -/
def splitAt {α : Type} [DecidableEq α] (separator : α) : List α → List (List α)
  | [] => [[]]
  | c :: cs =>
    match splitAt separator cs with
    | [] => []
    | part :: parts => if c = separator then [] :: part :: parts else (c :: part) :: parts

/-- The search finds a part exactly when the text is made of something, the part, and something. -/
theorem containsPart_iff (part cs : List Char) :
    containsPart part cs = true ↔ ∃ u w, cs = u ++ part ++ w := by
  induction cs with
  | nil =>
    simp only [containsPart, List.isEmpty_iff]
    constructor
    · rintro rfl
      exact ⟨[], [], rfl⟩
    · rintro ⟨u, w, h⟩
      simp only [List.nil_eq, List.append_eq_nil_iff] at h
      exact h.1.2
  | cons c cs ih =>
    simp only [containsPart, Bool.or_eq_true, List.isPrefixOf_iff_prefix, ih]
    constructor
    · rintro (⟨w, hw⟩ | ⟨u, w, rfl⟩)
      · exact ⟨[], w, by simp [hw]⟩
      · exact ⟨c :: u, w, by simp⟩
    · rintro ⟨u, w, h⟩
      cases u with
      | nil => exact .inl ⟨w, by simpa using h.symm⟩
      | cons d u =>
        simp only [List.cons_append, List.cons.injEq] at h
        exact .inr ⟨u, w, h.2⟩

/-- There is always at least one part, also of a text without characters. -/
theorem splitAt_ne_nil {α : Type} [DecidableEq α] (separator : α) (cs : List α) :
    splitAt separator cs ≠ [] := by
  cases cs with
  | nil => simp [splitAt]
  | cons c cs =>
    have ih := splitAt_ne_nil separator cs
    simp only [splitAt]
    split
    · next h => exact absurd h ih
    · split <;> simp

end EdgeGuard.Text
