import EdgeGuard.Expr.Decode
import EdgeGuard.Proofs.Expr.Leaves
import EdgeGuard.Proofs.Expr.Words

/-!
# `EdgeGuard.Proofs.Expr.Readable`: a sentence has one reading

A tree is told from every other tree by the words for it, wherever operands may end (`Expr.Told`).
Neither text needs to be the longer one for that: both trees and what follows them are determined
together. So the induction on the tree reads a sentence from the left:

* `sentence_eq_layout`: a sentence is its first operand, the mark of the operator, and the other
  operands with the mark between them. Only the negation stands in front.
* `tail_append_inj`: behind the first operand the mark ends where an operand follows, and where the
  sentence ends. One mark then separates all operands that are left (`links_append_inj`).
* `Shown.told`: a nested condition is a sentence in parentheses, and no leaf starts with one.

`eq_of_toText_eq` is this for whole texts. It needs all of `Expr.Legible`: a conjunction and a
disjunction of one operand, say, have the same text.
-/

set_option autoImplicit false

namespace EdgeGuard

/-- A sentence with this number of operands shows its operator. A conjunction or disjunction has its
word between two operands, so that one operand alone does not show it. All other operators are asked
for exactly the operands that they take, since a surplus operand would not be in the sentence. -/
def Operator.Shows (operator : Operator) (count : Nat) : Prop :=
  match operator with
  | .and | .or => 2 ≤ count
  | operator => count = operator.operandCount

/-- A sentence that shows its operator has a first operand. -/
theorem Operator.Shows.exists_cons {α : Type} {operator : Operator} {operands : List α}
    (h : operator.Shows operands.length) : ∃ first more, operands = first :: more := by
  cases operands with
  | nil => cases operator <;> cases h
  | cons first more => exact ⟨first, more, rfl⟩

/-! ### The layout of a sentence -/

namespace Locale

/-- Further operands, each behind one more mark, then the closing word and `rest`. -/
def links (locale : Locale) (operator : Operator) : List (List Char) → List Char → List Char
  | [], rest => locale.closing operator ++ rest
  | words :: more, rest =>
    ' ' :: ((locale.mark operator).toList ++ ' ' :: (words ++ links locale operator more rest))

/-- What stands behind the first operand of a sentence, followed by `rest`. -/
def tail (locale : Locale) (operator : Operator) (more : List (List Char)) (rest : List Char) :
    List Char :=
  match more with
  | [] => ' ' :: ((locale.mark operator).toList ++ rest)
  | more => locale.links operator more rest

/-- The text of a sentence over the words for its operands, followed by `rest`. -/
def layout (locale : Locale) (operator : Operator) (first : List Char) (more : List (List Char))
    (rest : List Char) : List Char :=
  match operator with
  | .not => locale.negation.toList ++ ' ' :: (first ++ rest)
  | operator => first ++ locale.tail operator more rest

/-- A negation stands in front of its operand, with no mark behind. -/
theorem layout_not (locale : Locale) (first : List Char) (more : List (List Char))
    (rest : List Char) :
    locale.layout .not first more rest = locale.negation.toList ++ ' ' :: (first ++ rest) :=
  rfl

/-- All other sentences start with their first operand. -/
theorem layout_of_ne_not (locale : Locale) {operator : Operator} (h : operator ≠ .not)
    (first : List Char) (more : List (List Char)) (rest : List Char) :
    locale.layout operator first more rest = first ++ locale.tail operator more rest := by
  cases operator with
  | not => exact absurd rfl h
  | _ => rfl

/-- Without a closing word the operands are separated by the mark. -/
theorem links_eq_intercalate (locale : Locale) {operator : Operator}
    (hclosing : locale.closing operator = []) (first : List Char) (more : List (List Char))
    (rest : List Char) :
    first ++ locale.links operator more rest
      = (' ' :: ((locale.mark operator).toList ++ [' '])).intercalate (first :: more) ++ rest := by
  induction more generalizing first with
  | nil => simp [links, hclosing]
  | cons second more ih =>
    rw [links, ih, List.intercalate_cons_cons]
    simp

/-- A sentence that shows its operator is laid out around its marks. The layout is over letters with
a rest behind, so that a sentence can stand inside another one. -/
theorem sentence_eq_layout (locale : Locale) {operator : Operator} {first : String}
    {more : List String} (h : operator.Shows (more.length + 1)) :
    ∃ text, locale.sentence operator ((first :: more).map .ok) = .ok text ∧
      ∀ rest, text.toList ++ rest
        = locale.layout operator first.toList (more.map String.toList) rest := by
  cases operator with
  | and | or =>
    -- With two operands or more the mark stands between them, and none stands at the end.
    obtain ⟨second, more, rfl⟩ : ∃ second rest, more = second :: rest :=
      List.exists_cons_of_length_pos (Nat.le_of_succ_le_succ h)
    simp only [sentence, allWords_map_ok]
    refine ⟨_, rfl, fun rest => ?_⟩
    rw [String.toList_intercalate, layout, List.map_cons, List.map_cons, tail, links_eq_intercalate]
    · simp [mark]
    · cases locale <;> rfl
    · simp
    · simp
  | not | isNull | isNotNull =>
    obtain rfl : more = [] := List.eq_nil_of_length_eq_zero (Nat.succ.inj h)
    refine ⟨_, rfl, fun rest => ?_⟩
    simp [layout, tail, mark]
  | _ =>
    obtain ⟨second, rfl⟩ : ∃ second, more = [second] :=
      List.length_eq_one_iff.1 (Nat.succ.inj h)
    refine ⟨_, rfl, fun rest => ?_⟩
    cases locale <;> simp [layout, tail, links, mark, closing, phrase, Phrase.fill]

/-- The first operand ends where the mark stands. -/
theorem followsOperand_tail (locale : Locale) (operator : Operator) (more : List (List Char))
    (rest : List Char) : FollowsOperand (locale.tail operator more rest) := by
  cases more with
  | nil => exact followsOperand_blank _
  | cons words more => exact followsOperand_blank _

/-- An operand ends where a further mark, the closing word or the end of the sentence stands. This
is where operands may end, so it is what the reading of an operand may rely on. -/
theorem followsOperand_links (locale : Locale) (operator : Operator) (more : List (List Char))
    {rest : List Char} (h : Closes rest) :
    FollowsOperand (locale.links operator more rest) := by
  cases more with
  | nil =>
    rw [links, closing]
    split
    · exact followsOperand_blank _
    · exact h.followsOperand
  | cons words more => exact followsOperand_blank _

end Locale

/-! ### The words of a tree -/

namespace Expr

/-- A node that its sentence shows: a leaf shows all of it, and a conjunction or disjunction has at
least two operands. -/
def Legible : Expr → Prop
  | .condition tag operands => tag = .known .and ∨ tag = .known .or → 2 ≤ operands.length
  | .leaf operand => operand.Legible
  | .malformed _ => True

/-- A tree that its sentence shows: every operator is known and has its number of operands, and
every leaf shows all of it. It is an induction principle for trees that are in order and legible:
the check and the condition on the nodes are taken in at once. -/
inductive Shown : Expr → Prop
  | condition {operator : Operator} {operands : List Expr} (here : operator.Shows operands.length)
      (below : ∀ operand ∈ operands, Shown operand) : Shown (.condition (.known operator) operands)
  | leaf {operand : Operand} (here : operand.Legible) : Shown (.leaf operand)

/-- A tree of legible nodes that passes the check is one that its sentence shows. Of the check only
what it says of every node is used. -/
theorem shown_of_check {expr : Expr} (hcheck : expr.check = .ok ())
    (hlegible : expr.Everywhere Legible) : expr.Shown := by
  have hsound : expr.Everywhere Sound := ((check_eq_ok_iff expr).1 hcheck).2
  -- The check is about the root too, and so would not carry over to the operands.
  clear hcheck
  induction hsound with
  | @condition tag operands here _ ih =>
    obtain ⟨hmany, hbelow⟩ := everywhere_condition_iff.1 hlegible
    obtain ⟨operator, rfl, htakes⟩ := here
    refine .condition ?_ fun operand hmem => ih operand hmem (hbelow operand hmem)
    rw [← Operator.accepts_iff_takesOperands] at htakes
    cases operator with
    | and => exact hmany (.inl rfl)
    | or => exact hmany (.inr rfl)
    | _ => simpa [Operator.Shows, Operator.arity, Arity.accepts] using htakes
  | leaf _ => exact .leaf (everywhere_leaf_iff.1 hlegible)
  | malformed here => exact absurd here id

/-- The words for an operand, as letters. -/
def words (locale : Locale) (expr : Expr) : List Char :=
  ((renderOperand locale expr).toOption.getD "").toList

/-- The words for an operand are the letters of its text. -/
theorem words_of_render {locale : Locale} {expr : Expr} {text : String}
    (h : renderOperand locale expr = .ok text) : expr.words locale = text.toList := by
  rw [words, h]
  rfl

/-- A condition that shows its operator has a sentence, laid out over the words of its operands. The
texts of the operands are chosen once, and their letters are the ones that the layout speaks of. -/
theorem exists_render_of_shows (locale : Locale) {operator : Operator} {first : Expr}
    {more : List Expr} (hshows : operator.Shows (more.length + 1))
    (h : ∀ operand ∈ first :: more, ∃ text, renderOperand locale operand = .ok text) :
    ∃ text, render locale (.condition (.known operator) (first :: more)) = .ok text ∧
      ∀ rest, text.toList ++ rest
        = locale.layout operator (first.words locale) (more.map (words locale)) rest := by
  obtain ⟨texts, htexts, hlength⟩ := exists_words h
  have hletters : (first :: more).map (words locale) = texts.map String.toList := by
    have hsame := congrArg (List.map fun slot : Slot => (slot.toOption.getD "").toList) htexts
    rw [List.map_map, List.map_map] at hsame
    exact hsame
  cases texts with
  | nil => cases hlength
  | cons text texts =>
    obtain ⟨hfirst, hmore⟩ := List.cons.inj hletters
    rw [List.length_cons, List.length_cons] at hlength
    rw [render_known, htexts, hfirst, hmore]
    exact Locale.sentence_eq_layout locale (hlength ▸ hshows)

/-- A tree that its sentence shows has words in every language. -/
theorem Shown.exists_words {expr : Expr} (h : expr.Shown) (locale : Locale) :
    ∃ text, renderOperand locale expr = .ok text := by
  induction h with
  | @condition operator operands here _ ih =>
    obtain ⟨first, more, rfl⟩ := here.exists_cons
    obtain ⟨text, htext, -⟩ := exists_render_of_shows locale here ih
    exact (renderOperand_eq_ok_iff ..).2 ⟨text, htext⟩
  | leaf _ => exact ⟨_, rfl⟩

/-- The words for a condition are its sentence in parentheses. The closing parenthesis is a place
where an operand may end, so the sentence inside is read in the same way. -/
theorem words_condition (locale : Locale) {operator : Operator} {first : Expr} {more : List Expr}
    (hshows : operator.Shows (more.length + 1)) (h : ∀ operand ∈ first :: more, operand.Shown)
    (rest : List Char) :
    (Expr.condition (.known operator) (first :: more)).words locale ++ rest
      = '(' :: locale.layout operator (first.words locale) (more.map (words locale))
          (')' :: rest) := by
  obtain ⟨text, htext, hlayout⟩ := exists_render_of_shows locale hshows
    fun operand hmem => (h operand hmem).exists_words locale
  have hwords : renderOperand locale (.condition (.known operator) (first :: more))
      = .ok ("(" ++ text ++ ")") := by
    rw [renderOperand_condition, htext]
    rfl
  rw [words_of_render hwords, ← hlayout]
  simp

/-- What the words for an operand start with. -/
def lead : Expr → Lead
  | .condition .. => .condition
  | .leaf operand => operand.lead
  | .malformed _ => .plain

/-- The words for an operand start as its kind says. -/
theorem opens_words (locale : Locale) {expr : Expr} (h : expr.Shown) (rest : List Char) :
    ∃ c tail, expr.words locale ++ rest = c :: tail ∧ OpensOperand c ∧
      locale.lead (c :: tail) = expr.lead := by
  cases h with
  | condition here below =>
    obtain ⟨first, more, rfl⟩ := here.exists_cons
    rw [words_condition locale here below]
    exact ⟨'(', _, rfl, by simp [OpensOperand], by cases locale <;> rfl⟩
  | leaf here =>
    rw [words_of_render rfl]
    exact Operand.opens_render locale here rest

/-- The first characters of the words for a tree tell what kind of node it is. -/
theorem lead_words (locale : Locale) {expr : Expr} (h : expr.Shown) (rest : List Char) :
    locale.lead (expr.words locale ++ rest) = expr.lead := by
  obtain ⟨c, tail, hwords, -, hlead⟩ := opens_words locale h rest
  rw [hwords, hlead]

/-- Words that start two texts alike are those of nodes of one kind. So of two trees with the same
words at the front either both are conditions or both are leaves. -/
theorem lead_eq_of_words (locale : Locale) {a b : Expr} (ha : a.Shown) (hb : b.Shown)
    {rest rest' : List Char} (h : a.words locale ++ rest = b.words locale ++ rest') :
    a.lead = b.lead := by
  rw [← lead_words locale ha rest, h, lead_words locale hb]

/-- A sentence that starts with an operand does not start with a negation. -/
theorem lead_words_ne_negation (locale : Locale) {expr : Expr} (h : expr.Shown)
    (rest : List Char) : locale.lead (expr.words locale ++ rest) ≠ .negation := by
  rw [lead_words locale h]
  cases h with
  | condition here below => simp [lead]
  | leaf here => exact (Operand.lead_ne _).2

/-! ### One reading -/

/-- The words for a tree are read off the front of a text, wherever operands may end: no other
tree starts the same way. It is stated for two rests, as neither text is known to be a part of
the other. -/
def Told (locale : Locale) (a : Expr) : Prop :=
  ∀ b : Expr, b.Shown → ∀ rest rest' : List Char, FollowsOperand rest → FollowsOperand rest' →
    a.words locale ++ rest = b.words locale ++ rest' → a = b ∧ rest = rest'

/-- Operands behind one mark are read one after the other, up to the closing word. Two operators
with one mark differ in their closing word alone, so the end tells which of them it is. -/
theorem links_append_inj (locale : Locale) {a b : Operator} (hmark : locale.mark a = locale.mark b)
    {operands others : List Expr} (htold : ∀ operand ∈ operands, operand.Told locale)
    (hshown : ∀ operand ∈ others, operand.Shown) {rest rest' : List Char} (hrest : Closes rest)
    (hrest' : Closes rest')
    (h : locale.links a (operands.map (words locale)) rest
      = locale.links b (others.map (words locale)) rest') :
    a = b ∧ operands = others ∧ rest = rest' := by
  induction operands generalizing others with
  | nil =>
    cases others with
    | nil =>
      obtain ⟨hoperator, hsame⟩ := locale.closing_append_inj hmark h
      exact ⟨hoperator, rfl, hsame⟩
    | cons other others =>
      rw [List.map_cons, Locale.links, ← hmark] at h
      exact absurd h (locale.closing_append_ne a hrest _)
  | cons operand operands ih =>
    cases others with
    | nil =>
      rw [List.map_cons, Locale.links, hmark] at h
      exact absurd h.symm (locale.closing_append_ne b hrest' _)
    | cons other others =>
      obtain ⟨htold, htolds⟩ := List.forall_mem_cons.1 htold
      obtain ⟨hshown, hshowns⟩ := List.forall_mem_cons.1 hshown
      rw [List.map_cons, List.map_cons, Locale.links, Locale.links, hmark] at h
      -- The mark is one, so both texts go on with an operand.
      have hwords := (List.cons.inj (List.append_cancel_left (List.cons.inj h).2)).2
      obtain ⟨rfl, hlinks⟩ := htold other hshown _ _ (locale.followsOperand_links a _ hrest)
        (locale.followsOperand_links b _ hrest') hwords
      obtain ⟨rfl, rfl, hsame⟩ := ih htolds hshowns hlinks
      exact ⟨rfl, rfl, hsame⟩

/-- A sentence with a single operand has no closing word. So behind a single operand the end of the
sentence is the end of the mark. -/
theorem closing_of_shows_one (locale : Locale) {operator : Operator} (h : operator.Shows 1) :
    locale.closing operator = [] := by
  cases operator with
  | not | isNull | isNotNull => cases locale <;> rfl
  | _ => exact absurd h (by simp [Operator.Shows, Operator.operandCount])

/-- What follows the first operand shows the operator and the other operands. The mark ends where an
operand or the end of the sentence follows (`FollowsMark`), which tells a mark from a longer one
that starts with it. -/
theorem tail_append_inj (locale : Locale) {a b : Operator} {operands others : List Expr}
    (ha : a.Shows (operands.length + 1)) (hb : b.Shows (others.length + 1))
    (htold : ∀ operand ∈ operands, operand.Told locale)
    (hshown : ∀ operand ∈ operands, operand.Shown)
    (hshown' : ∀ operand ∈ others, operand.Shown) {rest rest' : List Char} (hrest : Closes rest)
    (hrest' : Closes rest')
    (h : locale.tail a (operands.map (words locale)) rest
      = locale.tail b (others.map (words locale)) rest') :
    a = b ∧ operands = others ∧ rest = rest' := by
  -- Behind the mark there is an operand or the end.
  have hfollows (operand : Expr) (hoperand : operand.Shown) (rest : List Char) :
      FollowsMark (' ' :: (operand.words locale ++ rest)) := by
    obtain ⟨c, tail, hwords, hopens, -⟩ := opens_words locale hoperand rest
    rw [hwords]
    exact .operand hopens tail
  cases operands with
  | nil =>
    cases others with
    | nil =>
      obtain ⟨hmark, hsame⟩ := locale.mark_append_inj (.closes hrest) (.closes hrest')
        (List.cons.inj h).2
      have hclosing : locale.closing a ++ rest = locale.closing b ++ rest' := by
        rw [closing_of_shows_one locale ha, closing_of_shows_one locale hb, hsame]
      exact ⟨(locale.closing_append_inj hmark hclosing).1, rfl, hsame⟩
    | cons other others =>
      obtain ⟨-, hsame⟩ := locale.mark_append_inj (.closes hrest)
        (hfollows other (hshown' other List.mem_cons_self) _) (List.cons.inj h).2
      -- One sentence ends here and the other one goes on.
      exact absurd hsame (hrest.ne_cons (by decide) _)
  | cons operand operands =>
    have hoperand := hfollows operand (hshown operand List.mem_cons_self)
    cases others with
    | nil =>
      obtain ⟨-, hsame⟩ := locale.mark_append_inj (hoperand _) (.closes hrest') (List.cons.inj h).2
      exact absurd hsame.symm (hrest'.ne_cons (by decide) _)
    | cons other others =>
      obtain ⟨hmark, -⟩ := locale.mark_append_inj (hoperand _)
        (hfollows other (hshown' other List.mem_cons_self) _) (List.cons.inj h).2
      exact links_append_inj locale hmark htold hshown' hrest hrest' h

/-- A sentence shows its operator and its operands. A negation is told by its first letters, with
which no operand starts. In every other sentence the first operand is read before anything else. -/
theorem layout_append_inj (locale : Locale) {a b : Operator} {first other : Expr}
    {more others : List Expr} (ha : a.Shows (more.length + 1)) (hb : b.Shows (others.length + 1))
    (htold : ∀ operand ∈ first :: more, operand.Told locale)
    (hshown : ∀ operand ∈ first :: more, operand.Shown)
    (hshown' : ∀ operand ∈ other :: others, operand.Shown) {rest rest' : List Char}
    (hrest : Closes rest) (hrest' : Closes rest')
    (h : locale.layout a (first.words locale) (more.map (words locale)) rest
      = locale.layout b (other.words locale) (others.map (words locale)) rest') :
    a = b ∧ first :: more = other :: others ∧ rest = rest' := by
  obtain ⟨hfirst, hmore⟩ := List.forall_mem_cons.1 htold
  have hother := hshown' other List.mem_cons_self
  by_cases hnot : a = .not
  · subst hnot
    obtain rfl : more = [] := List.eq_nil_of_length_eq_zero (Nat.succ.inj ha)
    by_cases hnot' : b = .not
    · subst hnot'
      obtain rfl : others = [] := List.eq_nil_of_length_eq_zero (Nat.succ.inj hb)
      rw [Locale.layout_not, Locale.layout_not] at h
      obtain ⟨rfl, hsame⟩ := hfirst other hother _ _ hrest.followsOperand hrest'.followsOperand
        (List.cons.inj (List.append_cancel_left h)).2
      exact ⟨rfl, rfl, hsame⟩
    · rw [Locale.layout_not, Locale.layout_of_ne_not locale hnot'] at h
      exact absurd (h ▸ locale.lead_negation _) (lead_words_ne_negation locale hother _)
  · rw [Locale.layout_of_ne_not locale hnot] at h
    by_cases hnot' : b = .not
    · subst hnot'
      have hlead := lead_words_ne_negation locale (hshown first List.mem_cons_self)
      rw [Locale.layout_not] at h
      exact absurd (h ▸ locale.lead_negation _) (hlead _)
    · rw [Locale.layout_of_ne_not locale hnot'] at h
      -- The first operand is read, and what follows it tells the rest.
      obtain ⟨rfl, htail⟩ := hfirst other hother _ _ (locale.followsOperand_tail a _ rest)
        (locale.followsOperand_tail b _ rest') h
      obtain ⟨rfl, rfl, hsame⟩ := tail_append_inj locale ha hb hmore
        (fun operand hmem => hshown operand (List.mem_cons_of_mem _ hmem))
        (fun operand hmem => hshown' operand (List.mem_cons_of_mem _ hmem)) hrest hrest' htail
      exact ⟨rfl, rfl, hsame⟩

/-- A tree that its sentence shows is told from all others. Parentheses are what makes this work for
nested conditions: behind an opening one there is a sentence up to the closing one. -/
theorem Shown.told {a : Expr} (ha : a.Shown) (locale : Locale) : a.Told locale := by
  intro b hb rest rest' hrest hrest' h
  -- The induction is on the first tree. Which case the second one is in is told by its first
  -- character.
  induction ha generalizing b rest rest' with
  | @condition operator operands here below ih =>
    cases hb with
    | @condition operator' others here' below' =>
      obtain ⟨first, more, rfl⟩ := here.exists_cons
      obtain ⟨other, others, rfl⟩ := here'.exists_cons
      rw [words_condition locale here below, words_condition locale here' below'] at h
      obtain ⟨rfl, hoperands, hsame⟩ := layout_append_inj locale here here' ih below below'
        (closes_parenthesis rest) (closes_parenthesis rest') (List.cons.inj h).2
      exact ⟨by rw [hoperands], (List.cons.inj hsame).2⟩
    | leaf here' =>
      have hlead := lead_eq_of_words locale (.condition here below) (.leaf here') h
      exact absurd hlead.symm (Operand.lead_ne _).1
  | @leaf operand here =>
    cases hb with
    | condition here' below' =>
      have hlead := lead_eq_of_words locale (.leaf here) (.condition here' below') h
      exact absurd hlead (Operand.lead_ne _).1
    | leaf here' =>
      rw [words_of_render rfl, words_of_render rfl] at h
      obtain ⟨rfl, hsame⟩ := Operand.render_append_inj locale here here' hrest hrest' h
      exact ⟨rfl, hsame⟩

/-- **A sentence has one reading.** Two trees that pass the check and whose nodes are legible have
the same text in a language only if they are the same tree: no operand has a declared type, no name
of a variable or function holds a closing bracket, every constant is null, a truth value, an integer
or a text without a quote, and every conjunction and disjunction has two operands or more. -/
theorem eq_of_toText_eq (locale : Locale) {a b : Expr} (ha : a.check = .ok ())
    (hb : b.check = .ok ()) (ha' : a.Everywhere Legible) (hb' : b.Everywhere Legible)
    (h : (a.toText locale).1 = (b.toText locale).1) : a = b := by
  have hroot := ((check_eq_ok_iff a).1 ha).1
  have hroot' := ((check_eq_ok_iff b).1 hb).1
  cases shown_of_check ha ha' with
  | leaf here => cases hroot
  | condition here below =>
    cases shown_of_check hb hb' with
    | leaf here' => cases hroot'
    | condition here' below' =>
      obtain ⟨first, more, rfl⟩ := here.exists_cons
      obtain ⟨other, others, rfl⟩ := here'.exists_cons
      obtain ⟨text, htext, hlayout⟩ := exists_render_of_shows locale here
        fun operand hmem => (below operand hmem).exists_words locale
      obtain ⟨text', htext', hlayout'⟩ := exists_render_of_shows locale here'
        fun operand hmem => (below' operand hmem).exists_words locale
      rw [toText, toText, htext, htext'] at h
      have hletters : text.toList ++ [] = text'.toList ++ [] := congrArg (·.toList ++ []) h
      rw [hlayout, hlayout'] at hletters
      obtain ⟨rfl, hoperands, -⟩ := layout_append_inj locale here here'
        (fun operand hmem => (below operand hmem).told locale) below below' closes_nil closes_nil
        hletters
      rw [hoperands]

/-- A constant holds what looks like the middle of a sentence. The tree that is read back from the
stored one has the same sentence, so it is the same tree. -/
theorem eq_of_toText_eq_of_stored :
    let late := Expr.condition (.known .gte)
      [.leaf (.ofFunction "hour"), .leaf (.ofConstant (.num (.ofNat 22)))]
    let odd := Expr.condition (.known .isIn)
      [.leaf (.ofVariable "code"), .leaf (.ofConstant (.str "1 中) 或 (2"))]
    let tree := Expr.condition (.known .or) [late, odd]
    (tree.toText .zh).1 = "(函数[hour] 大于等于 22) 或 (变量[code] 在 \"1 中) 或 (2\" 中)" ∧
      tree.check = .ok () ∧ tree.Everywhere Legible ∧ tree = ofJson tree.toJson := by
  intro late odd tree
  have hlate : late.Everywhere Legible := by
    refine .condition (by simp [Legible]) ?_
    rw [List.forall_mem_cons, List.forall_mem_singleton]
    exact ⟨.leaf (.ofFunction (by decide)), .leaf (.ofConstant (.int 22 (by decide)))⟩
  have hodd : odd.Everywhere Legible := by
    refine .condition (by simp [Legible]) ?_
    rw [List.forall_mem_cons, List.forall_mem_singleton]
    exact ⟨.leaf (.ofVariable (by decide)), .leaf (.ofConstant (.str (by decide)))⟩
  have hlegible : tree.Everywhere Legible := by
    refine .condition (by simp [Legible]) ?_
    rw [List.forall_mem_cons, List.forall_mem_singleton]
    exact ⟨hlate, hodd⟩
  have hstored : (ofJson tree.toJson).Everywhere Legible := hlegible
  exact ⟨rfl, rfl, hlegible, eq_of_toText_eq .zh rfl rfl hlegible hstored rfl⟩

/-- One operand alone does not show what it is an operand of. -/
example (operand : Operand) :
    ((Expr.condition (.known .and) [.leaf operand]).toText .en).1
      = ((Expr.condition (.known .or) [.leaf operand]).toText .en).1 := rfl

end Expr

end EdgeGuard
