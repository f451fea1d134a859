import EdgeGuard.Proofs.Expr.Check
import EdgeGuard.Proofs.Expr.Shape

/-!
# `EdgeGuard.Proofs.Expr.Grammar`: which stored values are well-formed conditions

Reading a value never fails, and checking the tree decides whether it is a condition. Together
they accept a language of values that can be given without either: `WireCondition` and
`WireOperand` are its two rules. A condition is an object with a tag and as many operands as the
tag takes; an operand is a condition, or an object without an operator whose type is the tag of a
kind of leaf.

The two recursions meet at `wireOperand_iff`: a value is an operand of the grammar exactly when
every node of the tree read from it is sound. The grammar asks a condition for its operator and its
operands and a leaf for its type only, so values that agree on these (`AgreeOnWire`) are accepted
together.
-/

set_option autoImplicit false

namespace EdgeGuard

/-- The tags of the kinds of leaves. -/
def leafTags : List String := ["variable", "constant", "function"]

mutual

/-- A stored value that is a well-formed condition. -/
inductive WireCondition : Json → Prop
  | intro {fields : List (String × Json)} {tag : String} {items : List Json}
      (operator : Bindings.get? fields "operator" = some (.str tag))
      (operands : Bindings.get? fields "operands" = some (.arr items))
      (count : TakesOperands tag items.length)
      (each : ∀ item ∈ items, WireOperand item) : WireCondition (.obj fields)

/-- A stored value that may stand among the operands of a well-formed condition. -/
inductive WireOperand : Json → Prop
  | condition {v : Json} (h : WireCondition v) : WireOperand v
  | leaf {fields : List (String × Json)} {tag : String}
      (operator : Bindings.get? fields "operator" = none)
      (type : Bindings.get? fields "type" = some (.str tag))
      (known : tag ∈ leafTags) : WireOperand (.obj fields)

end

/-- Two values that agree on what the grammar asks for: objects without an operator on their type,
and objects with an operator on this and on their operands, one by one. All other fields are free,
at the root and in every operand. -/
inductive AgreeOnWire : Json → Json → Prop
  | refl (v : Json) : AgreeOnWire v v
  | leaf {fields fields' : List (String × Json)}
      (operator : Bindings.get? fields "operator" = none)
      (operator' : Bindings.get? fields' "operator" = none)
      (type : Bindings.get? fields "type" = Bindings.get? fields' "type") :
      AgreeOnWire (.obj fields) (.obj fields')
  | condition {fields fields' : List (String × Json)} {tag : Json}
      (operator : Bindings.get? fields "operator" = some tag)
      (operator' : Bindings.get? fields' "operator" = some tag)
      (operands : Bindings.get? fields "operands" = Bindings.get? fields' "operands") :
      AgreeOnWire (.obj fields) (.obj fields')
  | operands {fields fields' : List (String × Json)} {tag : Json} {items items' : List Json}
      (operator : Bindings.get? fields "operator" = some tag)
      (operator' : Bindings.get? fields' "operator" = some tag)
      (operands : Bindings.get? fields "operands" = some (.arr items))
      (operands' : Bindings.get? fields' "operands" = some (.arr items'))
      (length : items.length = items'.length)
      (items : ∀ pair ∈ items.zip items', AgreeOnWire pair.1 pair.2) :
      AgreeOnWire (.obj fields) (.obj fields')

/-! ### Tags -/

/-- The tags listed are those that a kind of leaf has. -/
theorem mem_leafTags_iff (tag : String) :
    tag ∈ leafTags ↔ ∃ kind, OperandKind.ofTag? tag = some kind := by
  -- Both lists are finite: each tag names a kind, and the tag of each kind is listed.
  have hall : ∀ tag ∈ leafTags, (OperandKind.ofTag? tag).isSome := by decide
  have htags : ∀ kind : OperandKind, kind.tag ∈ leafTags := by
    intro kind
    cases kind <;> decide
  constructor
  · exact fun h => Option.isSome_iff_exists.1 (hall tag h)
  · rintro ⟨kind, h⟩
    have htag : kind.tag = tag := by simpa using List.find?_some h
    rw [← htag]
    exact htags kind

/-- The fields of an object declare a kind when its type is a text that is the tag of one. A type
that is no text, or another text, makes no leaf. -/
theorem exists_kindIn?_iff (fields : List (String × Json)) :
    (∃ kind, Operand.kindIn? fields = some kind)
      ↔ ∃ tag, Bindings.get? fields "type" = some (.str tag) ∧ tag ∈ leafTags := by
  constructor
  · rintro ⟨kind, h⟩
    obtain ⟨tag, htag, hkind⟩ := Option.bind_eq_some_iff.1 h
    obtain ⟨value, hvalue, htext⟩ := Option.bind_eq_some_iff.1 htag
    cases value with
    | str text =>
      cases htext
      exact ⟨tag, hvalue, (mem_leafTags_iff tag).2 ⟨kind, hkind⟩⟩
    | _ => cases htext
  · rintro ⟨tag, htype, htag⟩
    obtain ⟨kind, hkind⟩ := (mem_leafTags_iff tag).1 htag
    refine ⟨kind, ?_⟩
    rw [Operand.kindIn?, htype]
    exact hkind

/-- A value names an operator when it is the text of the operator's tag. Other texts and other
values are operators too, but unknown ones, and are found by the check. -/
theorem OperatorTag.ofJson_eq_known_iff (raw : Json) (operator : Operator) :
    OperatorTag.ofJson raw = .known operator ↔ raw = .str operator.tag := by
  constructor
  · intro h
    cases raw with
    | str text =>
      rw [OperatorTag.ofJson, OperatorTag.ofText] at h
      split at h
      · next found hfound =>
        cases h
        rw [Operator.tag_of_ofTag? hfound]
      · cases h
    | _ => cases h
  · rintro rfl
    rw [OperatorTag.ofJson, OperatorTag.ofText, Operator.ofTag?_tag]

namespace Expr

/-! ### Reading and checking -/

/-- The grammar takes a value for an operand exactly when every node of the tree that is read from
it is sound. The root is not asked to be a condition here, which is why this can be shown by
induction. -/
theorem wireOperand_iff (v : Json) : WireOperand v ↔ (ofJson v).Everywhere Sound := by
  induction v using operandInduction with
  | step v ih =>
    constructor
    · intro h
      cases h with
      | condition h =>
        cases h with
        | @intro fields tag items operator operands count each =>
          obtain ⟨known, rfl⟩ := Operator.exists_tag_of_takesOperands count
          rw [ofJson_of_operands operator operands]
          refine .condition ⟨known, (OperatorTag.ofJson_eq_known_iff _ _).2 rfl, ?_⟩ ?_
          · rwa [List.length_map]
          · intro operand hmem
            obtain ⟨item, hitem, rfl⟩ := List.mem_map.1 hmem
            exact (ih fields items item rfl operands hitem).1 (each item hitem)
      | @leaf fields tag operator type known =>
        obtain ⟨kind, hkind⟩ := (exists_kindIn?_iff fields).2 ⟨tag, type, known⟩
        rw [ofJson_of_kind operator hkind]
        exact .leaf trivial
    · intro h
      rcases ofJson_cases v with ⟨fields, tag, items, rfl, htag, hitems, hread⟩ |
        ⟨fields, kind, rfl, hnone, hkind, hread⟩ | hread
      · rw [hread, everywhere_condition_iff] at h
        obtain ⟨⟨operator, hoperator, hcount⟩, hbelow⟩ := h
        rw [OperatorTag.ofJson_eq_known_iff] at hoperator
        subst hoperator
        rw [List.length_map] at hcount
        refine .condition (.intro htag hitems hcount fun item hitem => ?_)
        exact (ih fields items item rfl hitems hitem).2
          (hbelow _ (List.mem_map_of_mem hitem))
      · -- A leaf of some kind has a type that is a tag.
        obtain ⟨tag, htype, hknown⟩ := (exists_kindIn?_iff fields).1 ⟨kind, hkind⟩
        exact .leaf hnone htype hknown
      · rw [hread, everywhere_malformed_iff] at h
        exact absurd h id

/-- The grammar takes a value for a condition exactly when it takes it for an operand and the tree
read from it is a condition. A leaf alone is accepted by neither the rule for conditions nor the
check. -/
theorem wireCondition_iff (v : Json) :
    WireCondition v ↔ (ofJson v).isCondition = true ∧ WireOperand v := by
  constructor
  · intro h
    refine ⟨?_, .condition h⟩
    cases h with
    | intro operator operands count each =>
      rw [ofJson_of_operands operator operands]
      rfl
  · rintro ⟨hcondition, h⟩
    cases h with
    | condition h => exact h
    | leaf operator type known =>
      obtain ⟨kind, hkind⟩ := (exists_kindIn?_iff _).2 ⟨_, type, known⟩
      rw [ofJson_of_kind operator hkind] at hcondition
      exact absurd hcondition (by simp [isCondition])

/-! ### What the grammar does not look at -/

/-- The rule for conditions, read backwards. -/
theorem wireCondition_obj_iff (fields : List (String × Json)) :
    WireCondition (.obj fields) ↔ ∃ tag items,
      Bindings.get? fields "operator" = some (.str tag) ∧
      Bindings.get? fields "operands" = some (.arr items) ∧
      TakesOperands tag items.length ∧ ∀ item ∈ items, WireOperand item := by
  constructor
  · intro h
    cases h with
    | intro operator operands count each => exact ⟨_, _, operator, operands, count, each⟩
  · rintro ⟨tag, items, operator, operands, count, each⟩
    exact .intro operator operands count each

/-- The rules for operands, read backwards: an object is a condition or a leaf. -/
theorem wireOperand_obj_iff (fields : List (String × Json)) :
    WireOperand (.obj fields) ↔ WireCondition (.obj fields) ∨
      (Bindings.get? fields "operator" = none ∧
        ∃ tag, Bindings.get? fields "type" = some (.str tag) ∧ tag ∈ leafTags) := by
  constructor
  · intro h
    cases h with
    | condition h => exact .inl h
    | leaf operator type known => exact .inr ⟨operator, _, type, known⟩
  · rintro (h | ⟨operator, tag, type, known⟩)
    · exact .condition h
    · exact .leaf operator type known

/-- A property that two lists share item by item holds of all items of both or of neither. It turns
the agreement of operands, which is place by place, into one of all operands. -/
theorem forall_mem_iff_of_zip {α : Type} {p : α → Prop} {xs ys : List α}
    (hlength : xs.length = ys.length) (h : ∀ pair ∈ xs.zip ys, (p pair.1 ↔ p pair.2)) :
    (∀ x ∈ xs, p x) ↔ ∀ y ∈ ys, p y := by
  induction xs generalizing ys with
  | nil =>
    have hnil : ys = [] := List.length_eq_zero_iff.1 hlength.symm
    subst hnil
    exact Iff.rfl
  | cons x xs ih =>
    cases ys with
    | nil => exact absurd hlength (by simp)
    | cons y ys =>
      rw [List.zip_cons_cons, List.forall_mem_cons] at h
      rw [List.forall_mem_cons, List.forall_mem_cons, h.1,
        ih (by simpa using hlength) h.2]

/-- An object with an operator is an operand only as a condition. -/
theorem wireOperand_iff_of_operator {fields : List (String × Json)} {tag : Json}
    (h : Bindings.get? fields "operator" = some tag) :
    WireOperand (.obj fields) ↔ WireCondition (.obj fields) := by
  rw [wireOperand_obj_iff, h]
  simp

/-- The grammar asks an object for its operator and, with one, for its operands, else for its
type. Both rules are shown together, since the operands of a condition are taken by the rule for
operands. -/
theorem wire_congr {v w : Json} (h : AgreeOnWire v w) :
    (WireCondition v ↔ WireCondition w) ∧ (WireOperand v ↔ WireOperand w) := by
  induction h with
  | refl v => exact ⟨Iff.rfl, Iff.rfl⟩
  | leaf operator operator' type =>
    -- Without an operator neither of the two can be a condition.
    have hcondition : ∀ {fields : List (String × Json)}, Bindings.get? fields "operator" = none →
        ¬ WireCondition (.obj fields) := by
      intro fields hnone h
      cases h with
      | intro operator => exact absurd (hnone.symm.trans operator) (by simp)
    rw [wireOperand_obj_iff, wireOperand_obj_iff, operator, operator', type]
    simp only [hcondition operator, hcondition operator']
    exact ⟨trivial, trivial⟩
  | condition operator operator' operands =>
    rw [wireOperand_iff_of_operator operator, wireOperand_iff_of_operator operator', and_self,
      wireCondition_obj_iff, wireCondition_obj_iff, operator, operator', operands]
  | @operands fields fields' tag items items' operator operator' operands operands' length _ ih =>
    have hitems : (∀ item ∈ items, WireOperand item) ↔ ∀ item ∈ items', WireOperand item :=
      forall_mem_iff_of_zip length fun pair hpair => (ih pair hpair).2
    rw [wireOperand_iff_of_operator operator, wireOperand_iff_of_operator operator', and_self,
      wireCondition_obj_iff, wireCondition_obj_iff, operator, operator', operands, operands']
    simp only [Option.some.injEq, Json.arr.injEq, exists_eq_left', exists_and_left, length, hitems]

/-- **Reading and then checking accepts exactly the grammar.** A stored value passes when it is
an object with a tag and as many operands as the tag takes, each of which is again such an object
or a leaf. Two values pass together when they agree on this: the operator and the operands of a
condition, and the type of a leaf. Whatever else they hold has no effect. -/
theorem check_ofJson_eq_ok_iff (v w : Json) :
    ((ofJson v).check = .ok () ↔ WireCondition v) ∧
    (AgreeOnWire v w → ((ofJson v).check = .ok () ↔ (ofJson w).check = .ok ())) := by
  have haccepts (v : Json) : (ofJson v).check = .ok () ↔ WireCondition v := by
    rw [check_eq_ok_iff, wireCondition_iff, wireOperand_iff]
  refine ⟨haccepts v, fun h => ?_⟩
  rw [haccepts, haccepts, (wire_congr h).1]

/-- A nested condition, and the same with a type and a note at the root and with another value, a
data type and operands in the leaf below. -/
theorem check_ofJson_edited :
    let leaf := Json.obj [("type", .str "constant"), ("value", .null)]
    let edited := Json.obj [("dataType", .bool true), ("operands", .null),
      ("type", .str "constant"), ("value", .arr [])]
    let tree := fun operand : Json =>
      Json.obj [("operands", .arr [operand]), ("operator", .str "not")]
    let noted := fun operand : Json => Json.obj
      [("note", .null), ("operands", .arr [operand]), ("operator", .str "not"), ("type", .str "x")]
    AgreeOnWire (tree (tree leaf)) (noted (tree edited)) ∧
      WireCondition (tree (tree leaf)) ∧ (ofJson (noted (tree edited))).check = .ok () := by
  intro leaf edited tree noted
  have hleaf : AgreeOnWire leaf edited := .leaf rfl rfl rfl
  have hinner : AgreeOnWire (tree leaf) (tree edited) :=
    .operands rfl rfl rfl rfl rfl (by simpa using hleaf)
  have hagree : AgreeOnWire (tree (tree leaf)) (noted (tree edited)) :=
    .operands rfl rfl rfl rfl rfl (by simpa using hinner)
  have hcheck : (ofJson (tree (tree leaf))).check = .ok () := rfl
  have haccepts := check_ofJson_eq_ok_iff (tree (tree leaf)) (noted (tree edited))
  exact ⟨hagree, haccepts.1.1 hcheck, (haccepts.2 hagree).1 hcheck⟩

end Expr

end EdgeGuard
