import EdgeGuard.Proofs.Eval.Comparison

/-!
# `EdgeGuard.Proofs.Eval.Texts`: beginnings, ends and parts of a text

`contains`, `startsWith` and `endsWith` go through lists of characters. What they decide is a
relation of whole texts: the first value is the second one with a text before it, a text behind it,
or both. A text is a sequence of code points, and two texts are equal when these are, so no letter
stands for another one.

* `Json.textsRelate_iff`: such an operator decides true of two texts only.
* `contains_holds_iff`, `startsWith_holds_iff`, `endsWith_holds_iff`: the relation of each operator.
* `text_relations_exact`: the same for any two operands, and for values that are no texts.
-/

set_option autoImplicit false

namespace EdgeGuard

namespace Text

/-- The search finds a part where the text is a beginning, the part and an end. It goes on behind
every character, so it also finds a part that begins inside another attempt. -/
theorem containsPart_toList_iff (part text : String) :
    containsPart part.toList text.toList = true ↔ ∃ u w, text = u ++ part ++ w := by
  rw [containsPart_iff]
  constructor
  · rintro ⟨u, w, h⟩
    refine ⟨String.ofList u, String.ofList w, ?_⟩
    rw [← String.toList_inj]
    simp [h]
  · rintro ⟨u, w, rfl⟩
    exact ⟨u.toList, w.toList, by simp⟩

/-- A text starts with another one when it is this one and something behind it. -/
theorem isPrefixOf_toList_iff (start text : String) :
    start.toList.isPrefixOf text.toList = true ↔ ∃ w, text = start ++ w := by
  rw [List.isPrefixOf_iff_prefix]
  constructor
  · rintro ⟨w, h⟩
    refine ⟨String.ofList w, ?_⟩
    rw [← String.toList_inj]
    simp [h]
  · rintro ⟨w, rfl⟩
    exact ⟨w.toList, by simp⟩

/-- A text ends with another one when it is this one and something before it. -/
theorem isSuffixOf_toList_iff (finish text : String) :
    finish.toList.isSuffixOf text.toList = true ↔ ∃ u, text = u ++ finish := by
  rw [List.isSuffixOf_iff_suffix]
  constructor
  · rintro ⟨u, h⟩
    refine ⟨String.ofList u, ?_⟩
    rw [← String.toList_inj]
    simp [h]
  · rintro ⟨u, rfl⟩
    exact ⟨u.toList, by simp⟩

end Text

namespace Json

/-- Two values are in a relation of texts when both are texts and the texts are in it. -/
theorem textsRelate_iff (relation : List Char → List Char → Bool) (a b : Json) :
    textsRelate relation a b = true
      ↔ ∃ s t, a = .str s ∧ b = .str t ∧ relation s.toList t.toList = true := by
  constructor
  · intro h
    cases a with
    | str s =>
      cases b with
      | str t => exact ⟨s, t, rfl, rfl, h⟩
      | _ => cases h
    | _ => cases h
  · rintro ⟨s, t, rfl, rfl, h⟩
    exact h

end Json

namespace Operator

variable {σ : Type} {context : Context σ} {start : Run σ} {a b : Json}

/-- An operator over texts holds of two texts in its relation, and of nothing else. -/
theorem holds_iff_of_textsRelate {operator : Operator} (relation : List Char → List Char → Bool)
    {p : String → String → Prop}
    (h : operator.apply [a, b] = .ok (Json.textsRelate relation a b))
    (hp : ∀ s t : String, relation s.toList t.toList = true ↔ p s t) :
    operator.Holds context start a b ↔ ∃ s t, a = .str s ∧ b = .str t ∧ p s t := by
  rw [holds_iff_of_apply h, Json.textsRelate_iff]
  simp only [hp]

/-- `contains` holds of two texts when the second stands somewhere in the first. -/
theorem contains_holds_iff : contains.Holds context start a b
    ↔ ∃ s t, a = .str s ∧ b = .str t ∧ ∃ u w, s = u ++ t ++ w :=
  holds_iff_of_textsRelate (fun s part => Text.containsPart part s) rfl fun s t =>
    Text.containsPart_toList_iff t s

/-- `startsWith` holds of two texts when the first begins with the second. -/
theorem startsWith_holds_iff : startsWith.Holds context start a b
    ↔ ∃ s t, a = .str s ∧ b = .str t ∧ ∃ w, s = t ++ w :=
  holds_iff_of_textsRelate (fun s start => start.isPrefixOf s) rfl fun s t =>
    Text.isPrefixOf_toList_iff t s

/-- `endsWith` holds of two texts when the first ends with the second. -/
theorem endsWith_holds_iff : endsWith.Holds context start a b
    ↔ ∃ s t, a = .str s ∧ b = .str t ∧ ∃ u, s = u ++ t :=
  holds_iff_of_textsRelate (fun s finish => finish.isSuffixOf s) rfl fun s t =>
    Text.isSuffixOf_toList_iff t s

/-- An operator that holds of texts only decides false of every other value. -/
theorem evaluate_eq_false_of_no_text {x y : Expr} {operator : Operator}
    (h : (Expr.operandValues context [x, y] start).1 = .ok [a, b])
    (hnot : (∀ s, a ≠ .str s) ∨ ∀ t, b ≠ .str t) {p : String → String → Prop}
    (hholds : operator.Holds context start a b ↔ ∃ s t, a = .str s ∧ b = .str t ∧ p s t) :
    ((Expr.condition (.known operator) [x, y]).evaluate context start).1 = false := by
  rw [Bool.eq_false_iff, Ne, evaluate_iff_holds h, hholds]
  rintro ⟨s, t, hs, ht, -⟩
  rcases hnot with hnot | hnot
  · exact hnot s hs
  · exact hnot t ht

/-- **The operators over texts decide exactly their relations.** Let two operands have the values
`a` and `b`, whatever the operands are.

* `contains` holds when both are texts and `a` is a text, `b` and a text, `startsWith` when `a` is
  `b` and a text, and `endsWith` when `a` is a text and `b`. The texts may be empty, and equal texts
  have the same code points.
* When one of the values is no text, all three decide false. -/
theorem text_relations_exact (context : Context σ) (start : Run σ) {x y : Expr} {a b : Json}
    (h : (Expr.operandValues context [x, y] start).1 = .ok [a, b]) :
    let decides := fun operator : Operator =>
      ((Expr.condition (.known operator) [x, y]).evaluate context start).1
    (decides .contains = true ↔
        ∃ s t : String, a = .str s ∧ b = .str t ∧ ∃ u w, s = u ++ t ++ w) ∧
      (decides .startsWith = true ↔
        ∃ s t : String, a = .str s ∧ b = .str t ∧ ∃ w, s = t ++ w) ∧
      (decides .endsWith = true ↔
        ∃ s t : String, a = .str s ∧ b = .str t ∧ ∃ u, s = u ++ t) ∧
      ((∀ s, a ≠ .str s) ∨ (∀ t, b ≠ .str t) →
        decides .contains = false ∧ decides .startsWith = false ∧ decides .endsWith = false) := by
  intro decides
  refine ⟨?_, ?_, ?_, fun hnot => ?_⟩
  · exact (evaluate_iff_holds h .contains).trans contains_holds_iff
  · exact (evaluate_iff_holds h .startsWith).trans startsWith_holds_iff
  · exact (evaluate_iff_holds h .endsWith).trans endsWith_holds_iff
  · exact ⟨evaluate_eq_false_of_no_text h hnot contains_holds_iff,
      evaluate_eq_false_of_no_text h hnot startsWith_holds_iff,
      evaluate_eq_false_of_no_text h hnot endsWith_holds_iff⟩

/-- The part begins inside a first attempt that fails, and it is an end but no beginning. Everything
starts with the empty text. A letter with an accent is not the letter and then the accent, and the
number `1` is no text. -/
theorem text_relations_exact_of_overlap :
    let context := (Context.empty (σ := Unit)).setVariable "word" (.str "nananas")
    let start := Run.start ()
    let word := Expr.leaf (.ofVariable "word")
    let one := Expr.leaf (.ofConstant (.num (.ofNat 1)))
    let text := fun s : String => Expr.leaf (.ofConstant (.str s))
    let decides := fun (operator : Operator) (x y : Expr) =>
      ((Expr.condition (.known operator) [x, y]).evaluate context start).1
    decides .contains word (text "nanas") = true ∧ decides .endsWith word (text "nanas") = true ∧
      decides .startsWith word (text "nanas") = false ∧
      decides .startsWith word (text "") = true ∧
      decides .contains (text "e\u0301") (text "\u00e9") = false ∧
      decides .contains (text "1") one = false := by
  intro context start word one text decides
  obtain ⟨hcontains, -, hends, -⟩ :=
    text_relations_exact context start (x := word) (y := text "nanas") rfl
  obtain ⟨-, hempty, -, -⟩ := text_relations_exact context start (x := word) (y := text "") rfl
  obtain ⟨-, -, -, hnumber⟩ := text_relations_exact context start (x := text "1") (y := one) rfl
  have hone : ∀ t, Json.num (.ofNat 1) ≠ .str t := by simp
  refine ⟨?_, ?_, rfl, ?_, rfl, (hnumber (.inr hone)).1⟩
  · exact hcontains.2 ⟨_, _, rfl, rfl, "na", "", by decide⟩
  · exact hends.2 ⟨_, _, rfl, rfl, "na", by decide⟩
  · exact hempty.2 ⟨_, _, rfl, rfl, "nananas", by decide⟩

end Operator

end EdgeGuard
