import EdgeGuard.Proofs.Eval.Operands
import EdgeGuard.Proofs.Number.Rounding

/-!
# `EdgeGuard.Proofs.Eval.Comparison`: the comparisons of two values

A comparison sees two values and decides from their order (`Json.order?`). Equality is decided
elsewhere, by the walk of `Json.equals` through both values. On numbers and on strings the two agree:
the order of two equal values is `eq` (`Json.equals_iff_order?`). Nothing else has an order.

* `Json.order?_swap`, `Json.order?_trans`: the order seen from the other side, and in a chain.
* `Operator.holds_iff_of_order?`: each comparison as a set of orders.
* `comparisons_coherent`: one order is behind `gt`, `lt`, `gte`, `lte` and `eq`.
* `integer_comparisons_exact`: on integers, which are compared as doubles, it is never the reverse of
  the order of integers, and it is this order when one side is small.
-/

set_option autoImplicit false

namespace EdgeGuard

variable {σ : Type}

namespace Json

/-! ### The order of two values -/

/-- Both values are numbers, or both are strings. -/
inductive Comparable : Json → Json → Prop
  | numbers (a b : Number) : Comparable (.num a) (.num b)
  | strings (a b : String) : Comparable (.str a) (.str b)

/-- Numbers are in the order of their doubles. -/
theorem order?_num (a b : Number) :
    order? (.num a) (.num b) = some (compare a.scaled b.scaled) := rfl

/-- Strings are in the order of their characters. -/
theorem order?_str (a b : String) : order? (.str a) (.str b) = some (compare a b) := rfl

/-- Two numbers have an order, and so have two strings. -/
theorem order?_of_comparable {a b : Json} (h : Comparable a b) :
    ∃ ordering, order? a b = some ordering := by
  cases h with
  | numbers a b => exact ⟨_, order?_num a b⟩
  | strings a b => exact ⟨_, order?_str a b⟩

/-- Nothing else has one. -/
theorem comparable_of_order? {a b : Json} {ordering : Ordering}
    (h : order? a b = some ordering) : Comparable a b := by
  cases a with
  | num a =>
    cases b with
    | num b => exact .numbers a b
    | _ => cases h
  | str a =>
    cases b with
    | str b => exact .strings a b
    | _ => cases h
  | _ => cases h

/-- Equality decides what the order decides. Numbers are compared by their doubles in both, and
strings by their characters. -/
theorem equals_iff_order? {a b : Json} (h : Comparable a b) :
    a.equals b = true ↔ order? a b = some .eq := by
  cases h with
  | numbers a b =>
    rw [order?_num, equals, beq_iff_eq, Option.some_inj, Std.LawfulEqCmp.compare_eq_iff_eq]
  | strings a b =>
    rw [order?_str, equals, beq_iff_eq, Option.some_inj, Std.LawfulEqCmp.compare_eq_iff_eq]

/-- A comparison accepts the order of two values that have one. -/
theorem orderedBy_iff (accept : Ordering → Bool) (a b : Json) :
    orderedBy accept a b = true
      ↔ ∃ ordering, order? a b = some ordering ∧ accept ordering = true := by
  rw [orderedBy]
  cases order? a b <;> simp

/-- The order seen from the other side. Values without an order have none from the other side
either. -/
theorem order?_swap (a b : Json) : order? b a = (order? a b).map Ordering.swap := by
  cases a with
  | num a =>
    cases b with
    | num b => rw [order?_num, order?_num, Option.map_some, ← Std.OrientedCmp.eq_swap]
    | _ => rfl
  | str a =>
    cases b with
    | str b => rw [order?_str, order?_str, Option.map_some, ← Std.OrientedCmp.eq_swap]
    | _ => rfl
  -- Whatever stands beside it, there is no order from either side.
  | _ => cases b <;> rfl

/-- A chain of strict orders is strict, and a chain of weak ones is weak. -/
theorem compare_chain {α : Type} [Ord α] [Std.TransOrd α] (a b c : α) :
    (compare a b = .lt → compare b c = .lt → compare a c = .lt) ∧
      (compare a b ≠ .gt → compare b c ≠ .gt → compare a c ≠ .gt) := by
  refine ⟨Std.TransCmp.lt_trans, ?_⟩
  simp only [Ordering.ne_gt_iff_isLE]
  exact Std.TransCmp.isLE_trans

/-- The order of the ends of a chain of values. All of them are numbers, or all are strings. The
kind of the middle value is that of both ends. -/
theorem order?_trans {a b c : Json} {first second : Ordering} (hab : order? a b = some first)
    (hbc : order? b c = some second) :
    ∃ third, order? a c = some third ∧
      (first = .lt → second = .lt → third = .lt) ∧
      (first ≠ .gt → second ≠ .gt → third ≠ .gt) := by
  -- The value in the middle is of one kind, so all three are.
  cases comparable_of_order? hab with
  | numbers a b =>
    cases comparable_of_order? hbc with
    | numbers _ c =>
      cases hab
      cases hbc
      exact ⟨_, order?_num a c, compare_chain a.scaled b.scaled c.scaled⟩
  | strings a b =>
    cases comparable_of_order? hbc with
    | strings _ c =>
      cases hab
      cases hbc
      exact ⟨_, order?_str a c, compare_chain a b c⟩

end Json

/-! ### Conditions over two values -/

namespace Expr

/-- The condition over two constants. -/
def overConstants (operator : Operator) (a b : Json) : Expr :=
  .condition (.known operator) [.leaf (.ofConstant a), .leaf (.ofConstant b)]

/-- The values of constants are the constants, in every run. -/
theorem operandValues_constants (context : Context σ) (a b : Json) (start : Run σ) :
    (operandValues context [.leaf (.ofConstant a), .leaf (.ofConstant b)] start).1 = .ok [a, b] :=
  rfl

end Expr

namespace Operator

/-- A condition with this operator over constants of these values decides true. -/
def Holds (context : Context σ) (start : Run σ) (operator : Operator) (a b : Json) : Prop :=
  ((Expr.overConstants operator a b).evaluate context start).1 = true

variable {context : Context σ} {start : Run σ} {a b : Json}

/-- What the operands are does not matter, only their values do. So everything below is about two
values, and about constants without loss. -/
theorem evaluate_iff_holds {x y : Expr}
    (h : (Expr.operandValues context [x, y] start).1 = .ok [a, b]) (operator : Operator) :
    ((Expr.condition (.known operator) [x, y]).evaluate context start).1 = true
      ↔ operator.Holds context start a b := by
  rw [Holds, Expr.overConstants, Expr.fst_evaluate_of_values h,
    Expr.fst_evaluate_of_values (Expr.operandValues_constants context a b start)]

/-- What an operator holds of is what it makes of the two values. -/
theorem holds_iff_of_apply {operator : Operator} {result : Bool}
    (h : operator.apply [a, b] = .ok result) :
    operator.Holds context start a b ↔ result = true := by
  have hvalues := Expr.operandValues_constants context a b start
  rw [Holds, Expr.overConstants, Expr.fst_evaluate_of_values hvalues, h]
  rfl

/-- `eq` holds of values that are equal. -/
theorem eq_holds_iff : eq.Holds context start a b ↔ a.equals b = true :=
  holds_iff_of_apply rfl

/-- `neq` holds of all others, with an order or without. -/
theorem neq_holds_iff : neq.Holds context start a b ↔ ¬ a.equals b = true := by
  have happly : neq.apply [a, b] = .ok (!a.equals b) := rfl
  rw [holds_iff_of_apply happly, Bool.not_eq_true', Bool.not_eq_true]

/-- A comparison that accepts some orders holds of two values with one of these. The four
comparisons that need an order differ only in the orders that they accept. -/
theorem holds_iff_of_orderedBy {operator : Operator} (accept : Ordering → Bool)
    (h : operator.apply [a, b] = .ok (Json.orderedBy accept a b)) :
    operator.Holds context start a b
      ↔ ∃ ordering, Json.order? a b = some ordering ∧ accept ordering = true :=
  (holds_iff_of_apply h).trans (Json.orderedBy_iff accept a b)

/-- `gt` holds of values whose order is `gt`. -/
theorem gt_holds_iff : gt.Holds context start a b ↔ Json.order? a b = some .gt := by
  rw [holds_iff_of_orderedBy (· == .gt) rfl]
  simp

/-- `lt` holds of values whose order is `lt`. -/
theorem lt_holds_iff : lt.Holds context start a b ↔ Json.order? a b = some .lt := by
  rw [holds_iff_of_orderedBy (· == .lt) rfl]
  simp

/-- `gte` holds of values that have an order when it is not `lt`. Of values without an order it does
not hold, so it is not the negation of `lt`. -/
theorem gte_holds_iff : gte.Holds context start a b
    ↔ ∃ ordering, Json.order? a b = some ordering ∧ ordering ≠ .lt := by
  rw [holds_iff_of_orderedBy (· != .lt) rfl]
  simp only [bne_iff_ne]

/-- `lte` holds of values that have an order when it is not `gt`. -/
theorem lte_holds_iff : lte.Holds context start a b
    ↔ ∃ ordering, Json.order? a b = some ordering ∧ ordering ≠ .gt := by
  rw [holds_iff_of_orderedBy (· != .gt) rfl]
  simp only [bne_iff_ne]

/-- Each comparison of values with an order holds of some orders. -/
theorem holds_iff_of_order? {ordering : Ordering} (h : Json.order? a b = some ordering) :
    (eq.Holds context start a b ↔ ordering = .eq) ∧
      (neq.Holds context start a b ↔ ordering ≠ .eq) ∧
      (gt.Holds context start a b ↔ ordering = .gt) ∧
      (lt.Holds context start a b ↔ ordering = .lt) ∧
      (gte.Holds context start a b ↔ ordering ≠ .lt) ∧
      (lte.Holds context start a b ↔ ordering ≠ .gt) := by
  have hequals := Json.equals_iff_order? (Json.comparable_of_order? h)
  rw [eq_holds_iff, neq_holds_iff, gt_holds_iff, lt_holds_iff, gte_holds_iff, lte_holds_iff,
    hequals, h]
  simp

/-- Of values with an order, exactly one of three comparisons holds, and the other two are made up
of these. It is the law of trichotomy, read off the three orders that there are. -/
theorem holds_of_comparable (h : Json.Comparable a b) :
    ((gt.Holds context start a b ∧ ¬ eq.Holds context start a b ∧ ¬ lt.Holds context start a b) ∨
        (¬ gt.Holds context start a b ∧ eq.Holds context start a b ∧ ¬ lt.Holds context start a b) ∨
        (¬ gt.Holds context start a b ∧ ¬ eq.Holds context start a b ∧ lt.Holds context start a b)) ∧
      (gte.Holds context start a b ↔ gt.Holds context start a b ∨ eq.Holds context start a b) ∧
      (lte.Holds context start a b ↔ lt.Holds context start a b ∨ eq.Holds context start a b) := by
  obtain ⟨ordering, hordering⟩ := Json.order?_of_comparable h
  obtain ⟨heq, -, hgt, hlt, hgte, hlte⟩ := holds_iff_of_order? hordering
  rw [heq, hgt, hlt, hgte, hlte]
  -- Each of the three orders settles all five conditions.
  cases ordering <;> simp

/-- Of values without an order, none of the comparisons that need one holds. Equality is left out:
`eq` and `neq` are about all values. -/
theorem not_holds_of_not_comparable (h : ¬ Json.Comparable a b) :
    ¬ gt.Holds context start a b ∧ ¬ lt.Holds context start a b ∧
      ¬ gte.Holds context start a b ∧ ¬ lte.Holds context start a b := by
  -- None of these is a negation, so the missing order is enough.
  have hnone : Json.order? a b = none :=
    Option.eq_none_iff_forall_ne_some.2 fun ordering hsome => h (Json.comparable_of_order? hsome)
  rw [gt_holds_iff, lt_holds_iff, gte_holds_iff, lte_holds_iff, hnone]
  simp

/-- The sides of a strict comparison may be changed. -/
theorem gt_holds_iff_lt : gt.Holds context start a b ↔ lt.Holds context start b a := by
  rw [gt_holds_iff, lt_holds_iff, Json.order?_swap a b]
  cases Json.order? a b with
  | none => simp
  | some ordering =>
    rw [Option.map_some, Option.some_inj, Option.some_inj]
    cases ordering <;> decide

/-- The sides of a weak comparison may be changed. -/
theorem gte_holds_iff_lte : gte.Holds context start a b ↔ lte.Holds context start b a := by
  rw [gte_holds_iff, lte_holds_iff, Json.order?_swap a b]
  cases Json.order? a b with
  | none => simp
  | some ordering =>
    simp only [Option.map_some, Option.some_inj, exists_eq_left']
    cases ordering <;> decide

/-- A chain of two strict comparisons is one. Both parts hold, so all three values have an order. -/
theorem lt_holds_trans {c : Json} (hab : lt.Holds context start a b)
    (hbc : lt.Holds context start b c) : lt.Holds context start a c := by
  rw [lt_holds_iff] at hab hbc ⊢
  obtain ⟨ordering, hac, hstrict, -⟩ := Json.order?_trans hab hbc
  rw [hac, hstrict rfl rfl]

/-- A chain of two weak comparisons is one. -/
theorem lte_holds_trans {c : Json} (hab : lte.Holds context start a b)
    (hbc : lte.Holds context start b c) : lte.Holds context start a c := by
  rw [lte_holds_iff] at hab hbc ⊢
  obtain ⟨first, hfirst, hfirstNe⟩ := hab
  obtain ⟨second, hsecond, hsecondNe⟩ := hbc
  obtain ⟨ordering, hac, -, hweak⟩ := Json.order?_trans hfirst hsecond
  exact ⟨ordering, hac, hweak hfirstNe hsecondNe⟩

/-- **One order is behind all comparisons.** Let a condition have operands of two values, whatever
the operands are. What it decides depends on the values, in the following way.

* Of two numbers, or of two strings, exactly one of `gt`, `eq` and `lt` holds. `gte` is `gt` or `eq`,
  and `lte` is `lt` or `eq`.
* Of other values none of `gt`, `lt`, `gte` and `lte` holds.
* The sides may be changed: `gt` with `lt`, and `gte` with `lte`.
* `lt` and `lte` are transitive. -/
theorem comparisons_coherent (context : Context σ) (start : Run σ) (a b c : Json) :
    let holds := fun operator : Operator => operator.Holds context start
    (∀ (operator : Operator) (x y : Expr),
        (Expr.operandValues context [x, y] start).1 = .ok [a, b] →
        (((Expr.condition (.known operator) [x, y]).evaluate context start).1 = true
          ↔ holds operator a b)) ∧
      (Json.Comparable a b →
        ((holds .gt a b ∧ ¬ holds .eq a b ∧ ¬ holds .lt a b) ∨
            (¬ holds .gt a b ∧ holds .eq a b ∧ ¬ holds .lt a b) ∨
            (¬ holds .gt a b ∧ ¬ holds .eq a b ∧ holds .lt a b)) ∧
          (holds .gte a b ↔ holds .gt a b ∨ holds .eq a b) ∧
          (holds .lte a b ↔ holds .lt a b ∨ holds .eq a b)) ∧
      (¬ Json.Comparable a b →
        ¬ holds .gt a b ∧ ¬ holds .lt a b ∧ ¬ holds .gte a b ∧ ¬ holds .lte a b) ∧
      (holds .gt a b ↔ holds .lt b a) ∧
      (holds .gte a b ↔ holds .lte b a) ∧
      (holds .lt a b → holds .lt b c → holds .lt a c) ∧
      (holds .lte a b → holds .lte b c → holds .lte a c) := by
  intro holds
  refine ⟨?_, holds_of_comparable, not_holds_of_not_comparable, gt_holds_iff_lt, gte_holds_iff_lte,
    lt_holds_trans, lte_holds_trans⟩
  intro operator x y h
  exact evaluate_iff_holds h operator

/-- The negative zero as a double is in a variable. It is equal to the integer `0`, so neither of the
two lies below the other, and it is at most the smallest positive double as `0` is. No comparison
with the text of the number holds. -/
theorem comparisons_coherent_of_zero :
    let low := Json.num (.float (.zero true))
    let zero := Json.num (.ofNat 0)
    let high := Json.num (.float ⟨false, 1, 0, by decide, by decide, .inl rfl⟩)
    let text := Json.str "0"
    let context := (Context.empty (σ := Unit)).setVariable "t" low
    let start := Run.start ()
    let tree := Expr.condition (.known .eq) [.leaf (.ofVariable "t"), .leaf (.ofConstant zero)]
    Json.Comparable low zero ∧ ¬ Json.Comparable low text ∧
      ((tree.evaluate context start).1 = true ↔ eq.Holds context start low zero) ∧
      (¬ gt.Holds context start low zero ∧ ¬ lt.Holds context start low zero) ∧
      lte.Holds context start low high ∧ ¬ lte.Holds context start low text := by
  intro low zero high text context start tree
  have hcomparable : Json.Comparable low zero := .numbers _ _
  have hother : ¬ Json.Comparable (.num (.float (.zero true))) (.str "0") := by
    intro h
    cases h
  have hequal : eq.Holds context start low zero := rfl
  have hstep : lte.Holds context start zero high := rfl
  obtain ⟨hoperands, hnumbers, -, -, -, -, htrans⟩ :=
    comparisons_coherent context start low zero high
  obtain ⟨-, -, htexts, -⟩ := comparisons_coherent context start low text high
  obtain ⟨hone, -, hlte⟩ := hnumbers hcomparable
  obtain ⟨-, -, -, hnot⟩ := htexts hother
  refine ⟨hcomparable, hother, hoperands .eq _ _ rfl, ?_, htrans (hlte.2 (.inr hequal)) hstep, hnot⟩
  -- Of the three cases only the one in the middle goes together with the equality.
  rcases hone with ⟨-, hne, -⟩ | ⟨hgt, -, hlt⟩ | ⟨-, hne, -⟩
  · exact absurd hequal hne
  · exact ⟨hgt, hlt⟩
  · exact absurd hequal hne

/-! ### Integers -/

/-- A decision is that of a comparison that holds in the same cases. -/
theorem evaluate_eq_decide {x y : Expr} {operator : Operator}
    (h : (Expr.operandValues context [x, y] start).1 = .ok [a, b]) {p : Prop} [Decidable p]
    (hp : operator.Holds context start a b ↔ p) :
    ((Expr.condition (.known operator) [x, y]).evaluate context start).1 = decide p := by
  rw [Bool.eq_iff_iff, decide_eq_true_iff, evaluate_iff_holds h, hp]

/-- **Integers are compared in their order.** Let a condition have operands of two integers of 64
bits, whatever the operands are.

* What it decides is never the reverse of the order of the integers: `gt` and `lt` are right when
  they hold, and `eq` and `lte` hold when they are right.
* When one of the two is below `2^53`, each comparison decides that of the integers. -/
theorem integer_comparisons_exact (context : Context σ) (start : Run σ) {x y : Expr} {m n : Int}
    (hm : Number.Fits m) (hn : Number.Fits n)
    (h : (Expr.operandValues context [x, y] start).1
      = .ok [.num (.int m hm), .num (.int n hn)]) :
    let decides := fun operator : Operator =>
      ((Expr.condition (.known operator) [x, y]).evaluate context start).1
    (decides .gt = true → m > n) ∧ (decides .lt = true → m < n) ∧
      (m = n → decides .eq = true) ∧ (m ≤ n → decides .lte = true) ∧
      (m.natAbs < 9007199254740992 ∨ n.natAbs < 9007199254740992 →
        decides .eq = decide (m = n) ∧ decides .neq = decide (m ≠ n) ∧
          decides .gt = decide (m > n) ∧ decides .lt = decide (m < n) ∧
          decides .gte = decide (m ≥ n) ∧ decides .lte = decide (m ≤ n)) := by
  intro decides
  have hdecides : ∀ operator, decides operator = true ↔ operator.Holds context start _ _ :=
    evaluate_iff_holds h
  have hdoubles := Json.order?_num (.int m hm) (.int n hn)
  obtain ⟨heq, -, hgt, hlt, -, hlte⟩ := holds_iff_of_order? hdoubles
  refine ⟨?_, ?_, ?_, ?_, fun hsmall => ?_⟩
  -- Integers that were the other way round would have doubles that are, or that are equal.
  · rw [hdecides, hgt, Int.compare_eq_gt]
    intro hgreater
    by_cases hle : m ≤ n
    · have hmono := Number.scaled_int_mono hm hn hle
      omega
    · omega
  · rw [hdecides, hlt, Int.compare_eq_lt]
    intro hless
    by_cases hle : n ≤ m
    · have hmono := Number.scaled_int_mono hn hm hle
      omega
    · omega
  · rintro rfl
    rw [hdecides, heq, Int.compare_eq_eq]
  · intro hle
    have hmono := Number.scaled_int_mono hm hn hle
    rw [hdecides, hlte, Ne, Int.compare_eq_gt]
    omega
  · -- The doubles are in the order of the integers, and all comparisons are read off it.
    have hintegers : Json.order? (.num (.int m hm)) (.num (.int n hn)) = some (compare m n) := by
      rw [hdoubles, Number.compare_scaled_int hm hn hsmall]
    obtain ⟨heq, hneq, hgt, hlt, hgte, hlte⟩ := holds_iff_of_order? hintegers
    refine ⟨evaluate_eq_decide h ?_, evaluate_eq_decide h ?_, evaluate_eq_decide h ?_,
      evaluate_eq_decide h ?_, evaluate_eq_decide h ?_, evaluate_eq_decide h ?_⟩
    · rw [heq, Int.compare_eq_eq]
    · rw [hneq, Ne, Int.compare_eq_eq]
    · rw [hgt, Int.compare_eq_gt]
    · rw [hlt, Int.compare_eq_lt]
    · rw [hgte, Ne, Int.compare_eq_lt, Int.not_lt, ge_iff_le]
    · rw [hlte, Ne, Int.compare_eq_gt, Int.not_lt]

/-- The bound cannot be higher: `2^53` and the next integer are one double, as a half is rounded to
the even mantissa. -/
example : (Number.int 9007199254740992 (by decide)).scaled
    = (Number.int 9007199254740993 (by decide)).scaled := by decide +kernel

/-- The last integer below `2^53` is in a variable and compared with `2^53`, which is as exact as with
the largest integer. The smallest integer does not lie above its neighbour. -/
theorem integer_comparisons_exact_at_bound :
    let integer := fun (value : Int) (h : Number.Fits value) => Json.num (.int value h)
    let context := (Context.empty (σ := Unit)).setVariable "n" (integer 9007199254740991 (by decide))
    let start := Run.start ()
    let tree := fun (operator : Operator) (x y : Expr) => Expr.condition (.known operator) [x, y]
    let named := Expr.leaf (.ofVariable "n")
    let bound := Expr.leaf (.ofConstant (integer 9007199254740992 (by decide)))
    let largest := Expr.leaf (.ofConstant (integer 18446744073709551615 (by decide)))
    let smallest := Expr.leaf (.ofConstant (integer (-9223372036854775808) (by decide)))
    let next := Expr.leaf (.ofConstant (integer (-9223372036854775807) (by decide)))
    ((tree .lt named bound).evaluate context start).1 = true ∧
      ((tree .eq named bound).evaluate context start).1 = false ∧
      ((tree .gte largest named).evaluate context start).1 = true ∧
      ((tree .lte smallest next).evaluate context start).1 = true ∧
      ((tree .gt smallest next).evaluate context start).1 ≠ true := by
  intro integer context start tree named bound largest smallest next
  obtain ⟨-, -, -, -, hbound⟩ :=
    integer_comparisons_exact context start (x := named) (y := bound) (by decide) (by decide) rfl
  obtain ⟨-, -, -, -, hlargest⟩ :=
    integer_comparisons_exact context start (x := largest) (y := named) (by decide) (by decide) rfl
  obtain ⟨hgt, -, -, hlte, -⟩ :=
    integer_comparisons_exact context start (x := smallest) (y := next) (by decide) (by decide) rfl
  obtain ⟨heq, -, -, hlt, -⟩ := hbound (.inl (by decide))
  obtain ⟨-, -, -, -, hgte, -⟩ := hlargest (.inr (by decide))
  exact ⟨hlt, heq, hgte, hlte (by decide), fun h => absurd (hgt h) (by decide)⟩

end Operator

end EdgeGuard
