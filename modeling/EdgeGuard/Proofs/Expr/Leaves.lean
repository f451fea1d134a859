import EdgeGuard.Expr.Render
import EdgeGuard.Proofs.Json.RoundTrip
import EdgeGuard.Proofs.Locale

/-!
# `EdgeGuard.Proofs.Expr.Leaves`: the words for a leaf show the leaf

A name stands in square brackets and a text in quotes, and neither is escaped. So a name with a
closing bracket and a text with a quote may be taken for something else, and a declared type does not
stand in the words. `Operand.Legible` is the class without these. A leaf of this class can be read off the
front of a sentence:

* `lead_render`: the first two characters tell what kind of leaf stands there. A condition and a
  negation start differently.
* `render_append_inj`: the words of a leaf end where its delimiter is, or where an integer cannot
  go on, so that leaf and rest are determined.
-/

set_option autoImplicit false

namespace EdgeGuard

/-! ### What follows -/

/-- What may stand behind an operand: nothing, a blank or a closing parenthesis. This is what the
words around operands have in common, in every language. -/
def FollowsOperand (rest : List Char) : Prop := ∀ c ∈ rest.head?, c = ' ' ∨ c = ')'

/-- Where a sentence ends, its last operand does. -/
theorem Closes.followsOperand {rest : List Char} (h : Closes rest) : FollowsOperand rest :=
  fun c hc => .inr (h c hc)

/-- An operand ends in front of a blank. -/
theorem followsOperand_blank (rest : List Char) : FollowsOperand (' ' :: rest) := by
  intro c hc
  rw [List.head?_cons, Option.mem_some_iff] at hc
  exact .inl hc.symm

/-- A number ends where an operand does. -/
theorem FollowsOperand.ends {rest : List Char} (h : FollowsOperand rest) : Json.Ends rest := by
  intro c hc
  rcases h c hc with rfl | rfl <;> decide

/-- Words in front of a delimiter that is not in them. The first delimiter is where the words end,
on both sides. -/
theorem append_delimiter_inj {delimiter : Char} {body body' rest rest' : List Char}
    (hbody : delimiter ∉ body) (hbody' : delimiter ∉ body')
    (h : body ++ delimiter :: rest = body' ++ delimiter :: rest') : body = body' ∧ rest = rest' := by
  -- Either both words end here, or one has a character where the other one has the delimiter.
  induction body generalizing body' with
  | nil =>
    cases body' with
    | nil => exact ⟨rfl, (List.cons.inj h).2⟩
    | cons c body' => exact absurd (.inl (List.cons.inj h).1) (mt List.mem_cons.2 hbody')
  | cons c body ih =>
    cases body' with
    | nil => exact absurd (.inl (List.cons.inj h).1.symm) (mt List.mem_cons.2 hbody)
    | cons d body' =>
      obtain ⟨rfl, htail⟩ := List.cons.inj h
      obtain ⟨rfl, hrest⟩ := ih (mt (List.mem_cons_of_mem c) hbody)
        (mt (List.mem_cons_of_mem c) hbody') htail
      exact ⟨rfl, hrest⟩

/-! ### Legible leaves -/

/-- A constant whose words show its value: null, a truth value, an integer, or a text without a
quote. -/
inductive Json.Legible : Json → Prop
  | null : Legible .null
  | bool (value : Bool) : Legible (.bool value)
  | int (value : Int) (inRange) : Legible (.num (.int value inRange))
  | str {text : String} (h : '"' ∉ text.toList) : Legible (.str text)

/-- A legible constant has no fields that could be out of order. -/
theorem Json.Legible.ordered {value : Json} (h : value.Legible) : value.Ordered := by
  cases h <;> trivial

/-- A leaf whose words show all of it: it has no declared type, and no name in it holds a closing
bracket. A declared type is no part of the words, so two leaves that differ in it have the same
ones. -/
inductive Operand.Legible : Operand → Prop
  | ofVariable {name : String} (h : ']' ∉ name.toList) : Legible (.ofVariable name)
  | ofFunction {name : String} (h : ']' ∉ name.toList) : Legible (.ofFunction name)
  | ofConstant {value : Json} (h : value.Legible) : Legible (.ofConstant value)

/-- What the first characters of a sentence are the beginning of. -/
inductive Lead where
  | condition
  | negation
  | variable
  | function
  | text
  /-- Anything else, such as an integer. -/
  | plain

/-- What words start with, as their first two characters tell. -/
def Locale.lead : Locale → List Char → Lead
  | _, '(' :: _ => .condition
  | _, '"' :: _ => .text
  | .en, 'v' :: _ | .zh, '变' :: _ => .variable
  | .en, 'f' :: 'u' :: _ | .zh, '函' :: _ => .function
  | .en, 'n' :: 'o' :: _ | .zh, '非' :: _ => .negation
  | _, _ => .plain

/-- The words for a negation start like nothing else. -/
theorem Locale.lead_negation (locale : Locale) (rest : List Char) :
    locale.lead (locale.negation.toList ++ rest) = .negation := by
  cases locale <;> rfl

/-! ### The words for a leaf -/

namespace Operand

/-- What the words for a leaf start with. -/
def lead (operand : Operand) : Lead :=
  match operand.kind, operand.value with
  | .variable, _ => .variable
  | .function, _ => .function
  | .constant, .str _ => .text
  | .constant, _ => .plain

/-- No leaf starts like a condition or a negation. -/
theorem lead_ne (operand : Operand) : operand.lead ≠ .condition ∧ operand.lead ≠ .negation := by
  rw [lead]
  split <;> simp

/-- The name of a variable stands between the opening words and its bracket. -/
theorem toList_render_ofVariable (locale : Locale) (name : String) (rest : List Char) :
    ((ofVariable name).render locale).toList ++ rest
      = (locale.variableText "").toList.dropLast ++ (name.toList ++ ']' :: rest) := by
  cases locale <;> simp [render, ofVariable, Json.bare, Locale.variableText]

/-- So does the name of a function. -/
theorem toList_render_ofFunction (locale : Locale) (name : String) (rest : List Char) :
    ((ofFunction name).render locale).toList ++ rest
      = (locale.functionText "").toList.dropLast ++ (name.toList ++ ']' :: rest) := by
  cases locale <;> simp [render, ofFunction, Json.bare, Locale.functionText]

/-- A text stands between two quotes. -/
theorem toList_render_ofText (locale : Locale) (text : String) (rest : List Char) :
    ((ofConstant (.str text)).render locale).toList ++ rest
      = '"' :: (text.toList ++ '"' :: rest) := by
  simp [render, ofConstant, isQuoted, Json.bare]

/-- A constant that is no text stands as it is written. -/
theorem toList_render_ofConstant (locale : Locale) {value : Json} (h : value.str? = none)
    (rest : List Char) :
    ((ofConstant value).render locale).toList ++ rest = value.write rest := by
  have hwrite := Json.write_append value [] rest
  rw [List.nil_append] at hwrite
  cases value with
  | str text => cases h
  | _ => simp [render, ofConstant, isQuoted, Json.bare, Json.compact, hwrite]

/-- No word of a language and no delimiter starts like an integer. -/
theorem opens_of_number (locale : Locale) {c : Char} (h : c = '-' ∨ Json.isDigit c = true)
    (tail : List Char) : OpensOperand c ∧ locale.lead (c :: tail) = .plain := by
  refine ⟨⟨Json.ne_of_number h (by decide) (by decide), Json.ne_of_number h (by decide) (by decide),
    Json.ne_of_number h (by decide) (by decide)⟩, ?_⟩
  unfold Locale.lead
  split
  case h_9 => rfl
  -- In all other cases the text starts with a letter or a delimiter.
  all_goals
    rename_i heq
    cases heq
    exact absurd rfl (Json.ne_of_number h (by decide) (by decide))

/-- The words for a leaf start as its kind says. Each kind of leaf has words of its own in front,
apart from constants that are no texts, which start like a value. -/
theorem opens_render (locale : Locale) {operand : Operand} (h : operand.Legible)
    (rest : List Char) :
    ∃ c tail, (operand.render locale).toList ++ rest = c :: tail ∧ OpensOperand c ∧
      locale.lead (c :: tail) = operand.lead := by
  cases h with
  | ofVariable =>
    rw [toList_render_ofVariable]
    cases locale with
    | en => exact ⟨'v', _, rfl, by simp [OpensOperand], rfl⟩
    | zh => exact ⟨'变', _, rfl, by simp [OpensOperand], rfl⟩
  | ofFunction =>
    rw [toList_render_ofFunction]
    cases locale with
    | en => exact ⟨'f', _, rfl, by simp [OpensOperand], rfl⟩
    | zh => exact ⟨'函', _, rfl, by simp [OpensOperand], rfl⟩
  | ofConstant h =>
    cases h with
    | str =>
      rw [toList_render_ofText]
      exact ⟨'"', _, rfl, by simp [OpensOperand], by cases locale <;> rfl⟩
    | null =>
      rw [toList_render_ofConstant locale rfl]
      exact ⟨'n', _, rfl, by simp [OpensOperand], by cases locale <;> rfl⟩
    | bool value =>
      rw [toList_render_ofConstant locale rfl]
      cases value with
      | true => exact ⟨'t', _, rfl, by simp [OpensOperand], by cases locale <;> rfl⟩
      | false => exact ⟨'f', _, rfl, by simp [OpensOperand], by cases locale <;> rfl⟩
    | int value inRange =>
      rw [toList_render_ofConstant locale rfl, Json.write]
      have hread := @Json.number_chars (.int value inRange) [] (by simp [Json.Ends])
      -- An integer starts with a digit or a minus sign.
      obtain ⟨c, tail, hcs, hc⟩ := Json.exists_cons_of_number hread
      rw [List.append_nil] at hcs
      rw [hcs, List.cons_append]
      exact ⟨c, _, rfl, opens_of_number locale hc _⟩

/-- The first characters of a leaf tell its kind, whatever stands behind it. -/
theorem lead_render (locale : Locale) {operand : Operand} (h : operand.Legible)
    (rest : List Char) :
    locale.lead ((operand.render locale).toList ++ rest) = operand.lead := by
  obtain ⟨c, tail, hwords, -, hlead⟩ := opens_render locale h rest
  rw [hwords, hlead]

/-- A legible constant is read off the front of a text: a text ends with its quote, and any other
value is read back. The two constants start alike, so either both are texts or neither is. -/
theorem ofConstant_append_inj (locale : Locale) {a b : Json} (ha : a.Legible) (hb : b.Legible)
    (hlead : (ofConstant a).lead = (ofConstant b).lead) {rest rest' : List Char}
    (hrest : FollowsOperand rest) (hrest' : FollowsOperand rest')
    (h : ((ofConstant a).render locale).toList ++ rest
      = ((ofConstant b).render locale).toList ++ rest') : a = b ∧ rest = rest' := by
  -- Values other than texts are written as JSON, and a value can be read off the front of that.
  have hread := @Json.write_append_inj a b ha.ordered hb.ordered rest rest' hrest.ends hrest'.ends
  cases ha with
  | str hquote =>
    cases hb with
    | str hquote' =>
      rw [toList_render_ofText, toList_render_ofText] at h
      obtain ⟨htext, hsame⟩ := append_delimiter_inj hquote hquote' (List.cons.inj h).2
      exact ⟨by rw [String.toList_inj.1 htext], hsame⟩
    | _ => cases hlead
  | _ =>
    cases hb with
    | str => cases hlead
    | _ =>
      rw [toList_render_ofConstant locale rfl, toList_render_ofConstant locale rfl] at h
      exact hread h

/-- A legible leaf is read off the front of a text, wherever operands may end. Kinds are told apart
by the first characters, and within a kind the name or the value by where it ends. -/
theorem render_append_inj (locale : Locale) {a b : Operand} (ha : a.Legible) (hb : b.Legible)
    {rest rest' : List Char} (hrest : FollowsOperand rest) (hrest' : FollowsOperand rest')
    (h : (a.render locale).toList ++ rest = (b.render locale).toList ++ rest') :
    a = b ∧ rest = rest' := by
  have hlead : a.lead = b.lead := by
    rw [← lead_render locale ha rest, h, lead_render locale hb]
  -- Leaves of two kinds start differently.
  cases ha with
  | ofVariable hname =>
    cases hb with
    | ofVariable hname' =>
      rw [toList_render_ofVariable, toList_render_ofVariable] at h
      obtain ⟨htext, hsame⟩ := append_delimiter_inj hname hname' (List.append_cancel_left h)
      exact ⟨by rw [String.toList_inj.1 htext], hsame⟩
    | ofFunction => cases hlead
    | ofConstant hvalue => cases hvalue <;> cases hlead
  | ofFunction hname =>
    cases hb with
    | ofVariable => cases hlead
    | ofFunction hname' =>
      rw [toList_render_ofFunction, toList_render_ofFunction] at h
      obtain ⟨htext, hsame⟩ := append_delimiter_inj hname hname' (List.append_cancel_left h)
      exact ⟨by rw [String.toList_inj.1 htext], hsame⟩
    | ofConstant hvalue => cases hvalue <;> cases hlead
  | ofConstant hvalue =>
    cases hb with
    | ofVariable => cases hvalue <;> cases hlead
    | ofFunction => cases hvalue <;> cases hlead
    | ofConstant hvalue' =>
      obtain ⟨rfl, hsame⟩ := ofConstant_append_inj locale hvalue hvalue' hlead hrest hrest' h
      exact ⟨rfl, hsame⟩

end Operand

end EdgeGuard
