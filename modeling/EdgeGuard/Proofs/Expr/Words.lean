import EdgeGuard.Expr.Render
import EdgeGuard.Proofs.Eval.Faults
import EdgeGuard.Proofs.Fault

/-!
# `EdgeGuard.Proofs.Expr.Words`: which trees have a sentence

An operator asks for the words of its first operand, then for those of the second, and never for
those of a surplus operand. This comes to the same as asking for the words of all operands that it
takes and composing the sentence behind that (`sentence_eq`). So the faults of a sentence can be
compared with those of an evaluation, where all operands come first.

* `renderOperand_corresponds`: the language does not matter for the faults.
* `renderOperand_of_unbroken`: a tree that can be evaluated has a sentence. The converse fails: a
  broken condition may stand in a surplus operand.
* `render_corresponds`: without surplus operands the first problem of both is the same.
-/

set_option autoImplicit false

namespace EdgeGuard

/-! ### The operands that an operator takes -/

namespace Operator

/-- The operands that an operator takes from a list: all, the first or the first two. The others are
surplus operands, which have no words in the sentence. -/
def taken {α : Type} (operator : Operator) (operands : List α) : List α :=
  match operator with
  | .and | .or => operands
  | operator => operands.take operator.operandCount

/-- The operands taken do not depend on what the operands are. -/
theorem taken_map {α β : Type} (operator : Operator) (f : α → β) (operands : List α) :
    operator.taken (operands.map f) = (operator.taken operands).map f := by
  cases operator <;> simp [taken]

/-- Only operands that are there are taken. -/
theorem mem_of_mem_taken {α : Type} {operator : Operator} {operands : List α} {operand : α}
    (h : operand ∈ operator.taken operands) : operand ∈ operands := by
  cases operator with
  | and | or => exact h
  | _ => exact List.mem_of_mem_take h

/-- Without surplus operands all are taken. -/
theorem taken_eq_self {α : Type} {operator : Operator} {operands : List α}
    (h : ¬ HasSurplus operator.tag operands.length) : operator.taken operands = operands := by
  cases operator with
  | and | or => rfl
  | _ =>
    refine List.take_of_length_le ?_
    simpa [HasSurplus, operandCount, tag, unaryTags, binaryTags] using h

end Operator

/-! ### Slots -/

/-- Slots with words have these words. -/
theorem allWords_map_ok (words : List String) : allWords (words.map .ok) = .ok words := by
  induction words with
  | nil => rfl
  | cons first rest ih => rw [List.map_cons, allWords, ih]; rfl

/-- The first slot without words decides, when all before have words. -/
theorem allWords_append_error (words : List String) (fault : RenderFault) (after : List Slot) :
    allWords (words.map .ok ++ .error fault :: after) = .error fault := by
  induction words with
  | nil => rfl
  | cons first rest ih => rw [List.map_cons, List.cons_append, allWords, ih]; rfl

/-- Slots that correspond give as many words, or the same fault. -/
theorem allWords_corresponds {f g : Expr → Slot} {operands : List Expr}
    (h : ∀ operand ∈ operands, Corresponds (· = ·) (fun _ _ => True) (f operand) (g operand)) :
    Corresponds (· = ·) (fun words others => words.length = others.length)
      (allWords (operands.map f)) (allWords (operands.map g)) := by
  induction operands with
  | nil => exact .ok rfl
  | cons operand rest ih =>
    have hrest := ih fun operand hmem => h operand (List.mem_cons_of_mem _ hmem)
    rw [List.map_cons, List.map_cons, allWords, allWords]
    refine (h operand List.mem_cons_self).bind fun text other _ => ?_
    exact hrest.bind fun words others hlength => .ok (congrArg Nat.succ hlength)

/-- The first slot is the words of all slots up to it. Behind this equation an operator that asks
for its operands one by one is one that is given the words of all that it takes. -/
theorem firstWords_eq (operator : Operator) (slots : List Slot) :
    firstWords operator slots
      = (allWords (slots.take 1)).bind fun words => firstWords operator (words.map .ok) := by
  match slots with
  | [] => rfl
  | .error fault :: _ => rfl
  | .ok words :: _ => rfl

/-- The first two slots are the words of all slots up to them. -/
theorem pairWords_eq (operator : Operator) (slots : List Slot) :
    pairWords operator slots
      = (allWords (slots.take 2)).bind fun words => pairWords operator (words.map .ok) := by
  match slots with
  | [] => rfl
  | [.error fault] => rfl
  | [.ok words] => rfl
  | .error fault :: _ :: _ => rfl
  | .ok words :: .error fault :: _ => rfl
  | .ok words :: .ok more :: _ => rfl

namespace Locale

/-- The sentence is composed of the words of the operands that the operator takes. A fault in an
operand that is not taken is never seen. This is where rendering and evaluation differ. -/
theorem sentence_eq (locale : Locale) (operator : Operator) (slots : List Slot) :
    locale.sentence operator slots
      = (allWords (operator.taken slots)).bind fun words =>
          locale.sentence operator (words.map .ok) := by
  cases operator with
  | and | or =>
    simp only [sentence, Operator.taken, allWords_map_ok]
    cases allWords slots <;> rfl
  | not | isNull | isNotNull =>
    simp only [sentence, Operator.taken, Operator.operandCount]
    rw [firstWords_eq]
    cases allWords (slots.take 1) <;> rfl
  | _ =>
    simp only [sentence, Operator.taken, Operator.operandCount]
    rw [pairWords_eq]
    cases allWords (slots.take 2) <;> rfl

/-- Words for too few operands make no sentence, and words for enough operands make one. The fault
has the index of the first operand that is missing, which is the number of words. -/
theorem sentence_cases (locale : Locale) (operator : Operator) (words : List String) :
    (words.length < operator.needs ∧
        locale.sentence operator (words.map .ok)
          = .error (.missingOperand operator words.length)) ∨
      (operator.needs ≤ words.length ∧
        ∃ text, locale.sentence operator (words.map .ok) = .ok text) := by
  -- The words are split as far as the operator looks.
  cases operator with
  | and | or =>
    right
    simp only [sentence, allWords_map_ok]
    exact ⟨Nat.zero_le _, _, rfl⟩
  | not | isNull | isNotNull =>
    cases words with
    | nil => exact .inl ⟨Nat.one_pos, rfl⟩
    | cons word rest => exact .inr ⟨Nat.le_add_left 1 rest.length, _, rfl⟩
  | _ =>
    cases words with
    | nil => exact .inl ⟨Nat.two_pos, rfl⟩
    | cons first rest =>
      cases rest with
      | nil => exact .inl ⟨Nat.one_lt_two, rfl⟩
      | cons second rest => exact .inr ⟨Nat.le_add_left 2 rest.length, _, rfl⟩

/-- Words for too few operands have the fault of the first one that is missing. -/
theorem sentence_of_lacksOperands (locale : Locale) {operator : Operator} {words : List String}
    (h : LacksOperands operator.tag words.length) :
    locale.sentence operator (words.map .ok)
      = .error (.missingOperand operator words.length) := by
  have hfew := (Operator.lacksOperands_iff operator words.length).1 h
  rcases sentence_cases locale operator words with ⟨-, hsentence⟩ | ⟨henough, -⟩
  · exact hsentence
  · exact absurd hfew (Nat.not_lt.2 henough)

/-- Words for enough operands make a sentence. -/
theorem exists_sentence_of_enough (locale : Locale) {operator : Operator} {words : List String}
    (h : ¬ LacksOperands operator.tag words.length) :
    ∃ text, locale.sentence operator (words.map .ok) = .ok text := by
  rcases sentence_cases locale operator words with ⟨hfew, -⟩ | ⟨-, hsentence⟩
  · exact absurd ((Operator.lacksOperands_iff operator words.length).2 hfew) h
  · exact hsentence

/-- Whether operands make a sentence, and why not, is the same in two languages when it is the same
for each operand. A sentence is not compared with another one, as its words are of another language.
Only whether there is one, and why not, can be the same. -/
theorem sentence_corresponds {f g : Expr → Slot} {operands : List Expr}
    (h : ∀ operand ∈ operands, Corresponds (· = ·) (fun _ _ => True) (f operand) (g operand))
    (locale other : Locale) (operator : Operator) :
    Corresponds (· = ·) (fun _ _ => True) (locale.sentence operator (operands.map f))
      (other.sentence operator (operands.map g)) := by
  rw [sentence_eq, sentence_eq, Operator.taken_map, Operator.taken_map]
  have htaken : ∀ operand ∈ operator.taken operands,
      Corresponds (· = ·) (fun _ _ => True) (f operand) (g operand) :=
    fun operand hmem => h operand (Operator.mem_of_mem_taken hmem)
  refine (allWords_corresponds htaken).bind fun words others hlength => ?_
  by_cases hlacks : LacksOperands operator.tag words.length
  · rw [sentence_of_lacksOperands locale hlacks, sentence_of_lacksOperands other (hlength ▸ hlacks),
      hlength]
    exact .error rfl
  · obtain ⟨text, htext⟩ := exists_sentence_of_enough locale hlacks
    obtain ⟨otherText, hotherText⟩ := exists_sentence_of_enough other (hlength ▸ hlacks)
    rw [htext, hotherText]
    exact .ok trivial

end Locale

/-! ### Trees -/

namespace Expr

/-- The operands are put into words one by one, so the recursion over the list is a map. -/
theorem renderOperands_eq_map (locale : Locale) (operands : List Expr) :
    renderOperands locale operands = operands.map (renderOperand locale) := by
  induction operands with
  | nil => rfl
  | cons operand rest ih => rw [renderOperands, ih, List.map_cons]

/-- A condition with a known operator has the sentence of the operator. -/
theorem render_known (locale : Locale) (operator : Operator) (operands : List Expr) :
    render locale (.condition (.known operator) operands)
      = locale.sentence operator (operands.map (renderOperand locale)) := by
  rw [render, renderOperands_eq_map]

/-- A condition has the same sentence as an operand and as a root, in parentheses. So a fault of a
nested condition is one of the condition around it, with nothing added. -/
theorem renderOperand_condition (locale : Locale) (tag : OperatorTag) (operands : List Expr) :
    renderOperand locale (.condition tag operands)
      = (render locale (.condition tag operands)).map fun text => "(" ++ text ++ ")" := by
  cases tag with
  | unknown text => rfl
  | known operator =>
    rw [renderOperand, render]
    cases locale.sentence operator (renderOperands locale operands) <;> rfl

/-- Whether an operand has words, and why not, is the same in all languages. The words of leaves are
different in two languages, and there are always some. -/
theorem renderOperand_corresponds (locale other : Locale) (expr : Expr) :
    Corresponds (· = ·) (fun _ _ => True) (renderOperand locale expr) (renderOperand other expr) := by
  induction expr with
  | condition tag operands ih =>
    rw [renderOperand_condition, renderOperand_condition]
    cases tag with
    | unknown text => exact .error rfl
    | known operator =>
      rw [render_known, render_known]
      exact (Locale.sentence_corresponds ih locale other operator).map fun _ _ _ => trivial
  | leaf operand => exact .ok trivial
  | malformed raw => exact .ok trivial

/-- A condition has words as an operand when it has a sentence as a root. -/
theorem renderOperand_eq_ok_iff (locale : Locale) (tag : OperatorTag) (operands : List Expr) :
    (∃ text, renderOperand locale (.condition tag operands) = .ok text)
      ↔ ∃ text, render locale (.condition tag operands) = .ok text := by
  rw [renderOperand_condition]
  cases render locale (.condition tag operands) with
  | error fault => simp [Except.map]
  | ok text => simp [Except.map]

/-- A condition has the same fault as an operand and as a root. -/
theorem renderOperand_eq_error_iff (locale : Locale) (tag : OperatorTag) (operands : List Expr)
    (fault : RenderFault) :
    renderOperand locale (.condition tag operands) = .error fault
      ↔ render locale (.condition tag operands) = .error fault := by
  rw [renderOperand_condition]
  cases render locale (.condition tag operands) with
  | error found => simp [Except.map]
  | ok text => simp [Except.map]

/-! ### The first problem -/

/-- Operands that have words have one list of them, with one entry for each operand. The faults of
the operands are excluded, so what is left can be taken together as one list. -/
theorem exists_words {locale : Locale} {operands : List Expr}
    (h : ∀ operand ∈ operands, ∃ text, renderOperand locale operand = .ok text) :
    ∃ words : List String, operands.map (renderOperand locale) = words.map .ok ∧
      words.length = operands.length := by
  induction operands with
  | nil => exact ⟨[], rfl, rfl⟩
  | cons operand rest ih =>
    obtain ⟨text, htext⟩ := h operand List.mem_cons_self
    obtain ⟨words, hwords, hlength⟩ := ih fun operand hmem => h operand (List.mem_cons_of_mem _ hmem)
    refine ⟨text :: words, ?_, congrArg Nat.succ hlength⟩
    rw [List.map_cons, List.map_cons, htext, hwords]

/-- A tree without a broken condition has words as an operand. It is enough that no condition lacks
operands, as only the first ones are put into words. -/
theorem renderOperand_of_unbroken (locale : Locale) {expr : Expr} (h : expr.Unbroken) :
    ∃ text, renderOperand locale expr = .ok text := by
  induction h with
  | @condition tag operands here below ih =>
    cases tag with
    | unknown text => exact absurd trivial here
    | known operator =>
      obtain ⟨words, hwords, hlength⟩ := exists_words ih
      have henough : ¬ LacksOperands operator.tag words.length := hlength ▸ here
      rw [renderOperand_eq_ok_iff, render_known, hwords]
      exact Locale.exists_sentence_of_enough locale henough
  | leaf here => exact ⟨_, rfl⟩
  | malformed here => exact ⟨_, rfl⟩

/-- No condition with a known operator in the tree has surplus operands. Only of such trees a
sentence looks at all operands, as an evaluation does. -/
def WithoutSurplus (expr : Expr) : Prop :=
  ∀ operator operands, (Expr.condition (.known operator) operands).Within expr →
    ¬ HasSurplus operator.tag operands.length

/-- Without surplus operands the words of a tree stop at the problem of its evaluation. Operands in
front of the place where the evaluation stops have words, so the sentence stops there too. -/
theorem renderOperand_of_stopsAt (locale : Locale) {expr : Expr} {names : List String}
    {fault : EvalFault} (h : expr.StopsAt names fault) (hsurplus : expr.WithoutSurplus) :
    ∃ found, renderOperand locale expr = .error found ∧ SameProblem fault found := by
  -- The induction is on the way to the place where the evaluation stops.
  induction h with
  | unknown text operands => exact ⟨_, rfl, .unknownOperator text⟩
  | @lacking operator operands hoperands hlacks =>
    obtain ⟨words, hwords, hlength⟩ := exists_words fun operand hmem =>
      renderOperand_of_unbroken locale (hoperands operand hmem)
    have hsentence := Locale.sentence_of_lacksOperands locale (hlength ▸ hlacks)
    rw [hlength, ← hwords, ← render_known] at hsentence
    exact ⟨_, (renderOperand_eq_error_iff ..).2 hsentence, .missingOperand operator operands.length⟩
  | @deeper operator before operand names fault hbefore _ after ih =>
    have hmem : operand ∈ before ++ operand :: after :=
      List.mem_append_right _ List.mem_cons_self
    obtain ⟨found, herror, hsame⟩ := ih fun operator operands hwithin =>
      hsurplus operator operands (.operand hmem hwithin)
    obtain ⟨words, hwords, -⟩ := exists_words fun earlier hearlier =>
      renderOperand_of_unbroken locale (hbefore earlier hearlier)
    -- All operands are taken, so the operator asks for the one that stops.
    have htaken : operator.taken ((before ++ operand :: after).map (renderOperand locale))
        = words.map .ok ++ .error found :: after.map (renderOperand locale) := by
      rw [Operator.taken_map, Operator.taken_eq_self (hsurplus operator _ .root), List.map_append,
        List.map_cons, hwords, herror]
    refine ⟨found, (renderOperand_eq_error_iff ..).2 ?_, hsame⟩
    rw [render_known, Locale.sentence_eq, htaken, allWords_append_error]
    rfl

/-- A tree that can be evaluated has a sentence. -/
theorem exists_render_of_unbroken (locale : Locale) {expr : Expr}
    (hroot : ∀ raw, expr ≠ .malformed raw) (h : expr.Unbroken) :
    ∃ text, expr.render locale = .ok text := by
  cases expr with
  | condition tag operands =>
    exact (renderOperand_eq_ok_iff ..).1 (renderOperand_of_unbroken locale h)
  | leaf operand => exact ⟨_, rfl⟩
  | malformed raw => exact absurd rfl (hroot raw)

/-- Without surplus operands the sentence of a tree fails with the problem of its evaluation. -/
theorem render_of_failsAfter (locale : Locale) {expr : Expr} {names : List String}
    {fault : EvalFault} (h : expr.FailsAfter names fault) (hsurplus : expr.WithoutSurplus) :
    ∃ found, expr.render locale = .error found ∧ SameProblem fault found := by
  rcases h with ⟨raw, rfl, -, rfl⟩ | hstops
  · exact ⟨_, rfl, .malformedNode⟩
  · obtain ⟨found, herror, hsame⟩ := renderOperand_of_stopsAt locale hstops hsurplus
    cases expr with
    | condition tag operands => exact ⟨found, (renderOperand_eq_error_iff ..).1 herror, hsame⟩
    | leaf operand => cases hstops
    | malformed raw => cases hstops

/-- **The sentence and the evaluation of a tree agree on what is broken.**

* A tree has a sentence in both languages, or it has the same fault in both.
* A tree that can be evaluated has a sentence.
* If no condition has operands behind those that its operator takes, then the tree has a sentence
  exactly when it can be evaluated, and otherwise both name the same first problem. -/
theorem render_corresponds (expr : Expr) :
    Corresponds (· = ·) (fun _ _ => True) (expr.render .en) (expr.render .zh) ∧
      ∀ {σ : Type} (context : Context σ) (start : Run σ) (locale : Locale),
        ((∃ result, (expr.run context start).1 = .ok result) →
          ∃ text, expr.render locale = .ok text) ∧
        (expr.WithoutSurplus →
          Corresponds SameProblem (fun _ _ => True) (expr.run context start).1
            (expr.render locale)) := by
  constructor
  · cases expr with
    | condition tag operands =>
      cases tag with
      | unknown text => exact .error rfl
      | known operator =>
        rw [render_known, render_known]
        exact Locale.sentence_corresponds (fun operand _ => renderOperand_corresponds .en .zh operand)
          .en .zh operator
    | leaf operand => exact .ok trivial
    | malformed raw => exact .error rfl
  · intro σ context start locale
    rcases run_cases context expr start with
      ⟨hroot, hwhole, -, result, hresult⟩ | ⟨names, fault, hfails, -, hresult⟩
    · obtain ⟨text, htext⟩ := exists_render_of_unbroken locale hroot hwhole
      rw [hresult, htext]
      exact ⟨fun _ => ⟨text, rfl⟩, fun _ => .ok trivial⟩
    · -- With surplus operands the sentence may do without the place that fails.
      rw [hresult]
      constructor
      · rintro ⟨result, hok⟩
        cases hok
      · intro hsurplus
        obtain ⟨found, herror, hsame⟩ := render_of_failsAfter locale hfails hsurplus
        rw [herror]
        exact .error hsame

/-- Behind a condition that lacks an operand stands an unknown operator. Sentence and evaluation
stop at the first of the two. In a surplus operand only the evaluation sees it. -/
theorem render_corresponds_of_lacking :
    let name := Expr.leaf (.ofVariable "a")
    let lacking := Expr.condition (.known .eq) [name]
    let tree := Expr.condition (.known .or) [lacking, .condition (.unknown "xor") []]
    let start := Run.start ()
    (tree.run .empty start).1 = .error (.missingOperand .eq 1) ∧
      Corresponds SameProblem (fun _ _ => True) (tree.run .empty start).1 (tree.render .zh) ∧
      ((Expr.condition (.known .not) [name, lacking]).run .empty start).1
        = .error (.missingOperand .eq 1) ∧
      (Expr.condition (.known .not) [name, lacking]).render .en = .ok "not variable[a]" ∧
      ∃ text, (Expr.condition (.known .not) [name]).render .en = .ok text := by
  intro name lacking tree start
  -- Of the three conditions in the tree, none has an operand too many.
  have hsurplus : tree.WithoutSurplus := by
    intro operator operands hwithin
    simp only [tree, lacking, name] at hwithin
    cases hwithin with
    | root => simp [HasSurplus, Operator.tag, unaryTags, binaryTags]
    | operand hmem h =>
      rcases List.mem_cons.1 hmem with rfl | hmem
      · cases h with
        | root => simp [HasSurplus, Operator.tag, unaryTags, binaryTags]
        | operand hname h =>
          rw [List.mem_singleton.1 hname] at h
          cases h
      · rw [List.mem_singleton.1 hmem] at h
        cases h with
        | operand hnone => exact absurd hnone List.not_mem_nil
  obtain ⟨-, hagree⟩ := render_corresponds tree
  obtain ⟨-, hwhole⟩ := render_corresponds (.condition (.known .not) [name])
  exact ⟨rfl, (hagree .empty start .zh).2 hsurplus, rfl, rfl,
    (hwhole .empty start .en).1 ⟨true, rfl⟩⟩

end Expr

end EdgeGuard
