import EdgeGuard.Proofs.Expr.Shape
import EdgeGuard.Proofs.Json.RoundTrip
import EdgeGuard.Proofs.Operator

/-!
# `EdgeGuard.Proofs.Expr.Stored`: what storing a tree keeps

A tree is stored as a value (`Expr.toJson`) and read back from it (`Expr.ofJson`). Two kinds of
nodes can come back as something else: an unknown operator whose text is the tag of a known one,
and a malformed node whose value has the shape of a node. `Faithful` excludes both.

* `ofJson_toJson_of_faithful` and `faithful_of_same`: a tree comes back exactly when all its
  nodes are faithful.
* `faithful_ofJson`: every tree that was read is of this kind. The one case with an argument is
  an operator that is no text: it is kept as the text of its value, and that is never a tag
  (`compact_not_mem_wireTags`).
* `depth_toJson_ofJson_le`: reading drops levels of nesting and adds none. So a tree that was
  read from a text can be stored as a text and read again.

A stored value has its fields in order. `ofJson_ordered_toJson` says that this changes nothing for
a tree whose own values are in order, so the proofs are about `toJson` as it is.
-/

set_option autoImplicit false

namespace EdgeGuard

/-! ### Identity of stored values -/

/-- A number is the same as itself. -/
theorem Number.same_self (n : Number) : n.same n = true := by
  cases n <;> simp [Number.same]

/-- A value is the same as itself. Lists of items and of fields have recursions of their own, so
there is an induction over the list inside the one over the value. -/
theorem Json.same_self (v : Json) : v.same v = true := by
  induction v with
  | null => rfl
  | bool b => simp [same]
  | num n => exact Number.same_self n
  | str text => simp [same]
  | arr items ih =>
    rw [same]
    induction items with
    | nil => rfl
    | cons item items ih' =>
      rw [sameItems, ih item List.mem_cons_self,
        ih' fun item hitem => ih item (List.mem_cons_of_mem _ hitem)]
      rfl
  | obj fields ih =>
    rw [same]
    induction fields with
    | nil => rfl
    | cons field fields ih' =>
      obtain ⟨name, value⟩ := field
      have hvalue : value.same value = true := ih (name, value) List.mem_cons_self
      rw [sameFields, hvalue, ih' fun field hfield => ih field (List.mem_cons_of_mem _ hfield)]
      simp

namespace Expr

/-- Operands are the same as what a function gives for them when this is so for each. It is stated
for any function, so that it serves for reading a stored tree and for reading it in order. -/
theorem sameAll_map_iff (again : Expr → Expr) (operands : List Expr) :
    sameAll (operands.map again) operands = true
      ↔ ∀ operand ∈ operands, (again operand).same operand = true := by
  induction operands with
  | nil => simp [sameAll]
  | cons operand rest ih =>
    rw [List.map_cons, sameAll, Bool.and_eq_true, ih, List.forall_mem_cons]

/-- A tree is the same as itself. -/
theorem same_self (expr : Expr) : expr.same expr = true := by
  induction expr with
  | condition tag operands ih =>
    have hall := (sameAll_map_iff id operands).2 ih
    rw [List.map_id] at hall
    simp [same, hall]
  | leaf operand => simp [same, Operand.same, Json.same_self]
  | malformed raw => exact Json.same_self raw

/-! ### Nodes that come back -/

/-- A node that is read back as it was stored: an unknown operator is not the tag of a known one,
and a malformed node holds a value that is read as a malformed node. Both conditions are about one
node, so a tree is faithful when all its nodes are. -/
def Faithful : Expr → Prop
  | .condition tag _ => ∀ text, tag = .unknown text → text ∉ wireTags
  | .leaf _ => True
  | .malformed raw => ∃ kept, ofJson raw = .malformed kept

/-- A tag is found again under its text unless it is an unknown one with the text of a known one. An
unknown operator with the text of a known one cannot be read, but it can be built. -/
theorem ofText_text_eq_iff (tag : OperatorTag) :
    OperatorTag.ofText tag.text = tag ↔ ∀ text, tag = .unknown text → text ∉ wireTags := by
  cases tag with
  | known operator =>
    rw [OperatorTag.text, OperatorTag.ofText, Operator.ofTag?_tag]
    simp
  | unknown text =>
    rw [OperatorTag.text, OperatorTag.ofText]
    constructor
    · intro h other hother
      cases hother
      rw [Operator.mem_wireTags_iff]
      rintro ⟨operator, hfound⟩
      rw [hfound] at h
      cases h
    · intro h
      rw [Operator.ofTag?_eq_none (h text rfl)]

/-- A condition comes back with its operands read back one by one, and with the operator that its
text stands for. -/
theorem ofJson_toJson_condition (tag : OperatorTag) (operands : List Expr) :
    ofJson (toJson (.condition tag operands))
      = .condition (.ofText tag.text) (operands.map fun operand => ofJson operand.toJson) := by
  rw [toJson, ofJson_of_operands rfl rfl, toItems_eq_map, List.map_map]
  rfl

/-- A leaf comes back, since the tags of its kind and of its data type are read back. No field of a
leaf is an operator, so it is not taken for a condition. -/
theorem ofJson_toJson_leaf (operand : Operand) :
    ofJson (toJson (.leaf operand)) = .leaf operand := by
  obtain ⟨kind, value, type⟩ := operand
  have hkind : Operand.kindIn? (Operand.toFields ⟨kind, value, type⟩) = some kind := by
    show OperandKind.ofTag? kind.tag = some kind
    rw [OperandKind.ofTag?_tag]
  cases type with
  | none =>
    rw [toJson, ofJson_of_kind rfl hkind]
    rfl
  | some type =>
    rw [toJson, ofJson_of_kind rfl hkind]
    show leaf ⟨kind, value, DataType.ofTag? type.tag⟩ = _
    rw [DataType.ofTag?_tag]

/-- A tree of faithful nodes comes back. -/
theorem ofJson_toJson_of_faithful {t : Expr} (h : t.Everywhere Faithful) :
    ofJson t.toJson = t := by
  induction t with
  | condition tag operands ih =>
    obtain ⟨htag, hbelow⟩ := everywhere_condition_iff.1 h
    rw [ofJson_toJson_condition, (ofText_text_eq_iff tag).2 htag,
      List.map_congr_left fun operand hmem => ih operand hmem (hbelow operand hmem), List.map_id']
  | leaf operand => exact ofJson_toJson_leaf operand
  | malformed raw =>
    obtain ⟨kept, hkept⟩ := everywhere_malformed_iff.1 h
    rw [toJson, hkept, eq_of_ofJson_malformed hkept]

/-- A tree that comes back has faithful nodes only. A node that comes back as another one is seen in
the comparison, which goes through all nodes. -/
theorem faithful_of_same {t : Expr} (h : (ofJson t.toJson).same t = true) :
    t.Everywhere Faithful := by
  induction t with
  | condition tag operands ih =>
    rw [ofJson_toJson_condition, same, Bool.and_eq_true, beq_iff_eq, sameAll_map_iff] at h
    exact .condition ((ofText_text_eq_iff tag).1 h.1) fun operand hmem =>
      ih operand hmem (h.2 operand hmem)
  | leaf operand => exact .leaf trivial
  | malformed raw =>
    refine .malformed ?_
    rw [toJson] at h
    cases hread : ofJson raw with
    | malformed kept => exact ⟨kept, hread⟩
    | _ =>
      rw [hread] at h
      exact absurd h (by simp [same])

/-! ### Trees that were read -/

/-- The text of a value that is no text itself is no tag: it starts like a value, and is not one of
the three words. -/
theorem compact_not_mem_wireTags {raw : Json} (h : ∀ text, raw ≠ .str text) :
    raw.compact ∉ wireTags := by
  -- No tag starts with a bracket, a brace, a minus sign or a digit.
  have hhead : ∀ tag ∈ wireTags, tag.toList.head?.all (fun c =>
      c ≠ '[' ∧ c ≠ '\x7b' ∧ c ≠ '-' ∧ Json.isDigit c = false) = true := by decide
  have hstart {c : Char} {tail : List Char} (hcs : raw.write [] = c :: tail)
      (hc : c = '[' ∨ c = '\x7b' ∨ c = '-' ∨ Json.isDigit c = true) : raw.compact ∉ wireTags := by
    intro hmem
    have hfirst := hhead _ hmem
    rw [Json.compact, String.toList_ofList, hcs, List.head?_cons, Option.all_some,
      decide_eq_true_eq] at hfirst
    rcases hc with hc | hc | hc | hc
    · exact hfirst.1 hc
    · exact hfirst.2.1 hc
    · exact hfirst.2.2.1 hc
    · exact absurd hc (by simp [hfirst.2.2.2])
  match raw with
  | .null | .bool true | .bool false => decide
  | .str text => exact absurd rfl (h text)
  | .num n =>
    have hread := @Json.number_chars n [] (by simp [Json.Ends])
    obtain ⟨c, tail, hcs, hc⟩ := Json.exists_cons_of_number hread
    exact hstart hcs (.inr (.inr hc))
  | .arr [] | .arr (_ :: _) => exact hstart rfl (.inl rfl)
  | .obj [] | .obj ((_, _) :: _) => exact hstart rfl (.inr (.inl rfl))

/-- An operator that was read is unknown only when its text is no tag. A text that is a tag would
have been read as the known operator. -/
theorem not_mem_wireTags_of_ofJson {raw : Json} {text : String}
    (h : OperatorTag.ofJson raw = .unknown text) : text ∉ wireTags := by
  cases raw with
  | str tag =>
    rw [OperatorTag.ofJson, OperatorTag.ofText] at h
    split at h
    · cases h
    · next hnone =>
      cases h
      rw [Operator.mem_wireTags_iff]
      rintro ⟨operator, hfound⟩
      rw [hnone] at hfound
      cases hfound
  | _ =>
    cases h
    exact compact_not_mem_wireTags (by simp)

/-- A tree that was read has faithful nodes only. The values that are read may be anything, so the
three ways of reading a value are gone through. -/
theorem faithful_ofJson (v : Json) : (ofJson v).Everywhere Faithful := by
  induction v using operandInduction with
  | step v ih =>
    rcases ofJson_cases v with ⟨fields, tag, items, hv, htag, hitems, hread⟩ |
      ⟨fields, kind, hv, hnone, hkind, hread⟩ | hread
    · rw [hread]
      refine .condition (fun text => not_mem_wireTags_of_ofJson) fun operand hmem => ?_
      obtain ⟨item, hitem, rfl⟩ := List.mem_map.1 hmem
      exact ih fields items item hv hitems hitem
    · rw [hread]
      exact .leaf trivial
    · rw [hread]
      exact .malformed ⟨v, hread⟩

/-- A tree that was read nests no deeper when it is stored than the value it was read from. Keys
that are dropped may only make it less deep, and an operator that is no text becomes one. -/
theorem depth_toJson_ofJson_le (v : Json) : (ofJson v).toJson.depth ≤ v.depth := by
  induction v using operandInduction with
  | step v ih =>
    rcases ofJson_cases v with ⟨fields, tag, items, rfl, htag, hitems, hread⟩ |
      ⟨fields, kind, rfl, hnone, hkind, hread⟩ | hread
    · -- The operands stand in a list inside the object, before and after.
      have hlist := Json.depth_le_depthFields (Bindings.mem_of_get? hitems)
      have hbelow : Json.depthItems (toItems (items.map ofJson)) ≤ Json.depthItems items := by
        refine (Json.depthItems_le_iff _ _).2 fun stored hstored => ?_
        rw [toItems_eq_map, List.map_map] at hstored
        obtain ⟨item, hitem, rfl⟩ := List.mem_map.1 hstored
        exact Nat.le_trans (ih fields items item rfl hitems hitem) (Json.depth_le_depthItems hitem)
      rw [hread]
      simp only [toJson, Json.depth, Json.depthFields] at hlist ⊢
      omega
    · -- Of the fields of a leaf only the value can nest.
      have hvalue : ((Bindings.get? fields "value").getD .null).depth
          ≤ Json.depthFields fields := by
        cases hget : Bindings.get? fields "value" with
        | none => exact Nat.zero_le _
        | some value => exact Json.depth_le_depthFields (Bindings.mem_of_get? hget)
      rw [hread]
      simp only [toJson, Operand.toFields, Operand.ofFields, Json.depth, Json.depthFields]
      cases (Bindings.get? fields "dataType").bind Operand.dataTypeOf? with
      | none =>
        simp only [Json.depthFields]
        omega
      | some type =>
        simp only [Json.depthFields, Json.depth]
        omega
    · rw [hread]
      exact Nat.le_refl _

/-- A tree that was read from a value in order has its own values in order. The values of leaves and
malformed nodes are parts of the value, and parts of a value in order are in order. -/
theorem ordered_ofJson {v : Json} (h : v.Ordered) : (ofJson v).Ordered := by
  induction v using operandInduction with
  | step v ih =>
    rcases ofJson_cases v with ⟨fields, tag, items, rfl, htag, hitems, hread⟩ |
      ⟨fields, kind, rfl, hnone, hkind, hread⟩ | hread
    · have hvalues := (Json.orderedFields_iff fields).1 h.2
      have hlist : (Json.arr items).Ordered := hvalues _ (Bindings.mem_of_get? hitems)
      rw [hread]
      refine .condition trivial fun operand hmem => ?_
      obtain ⟨item, hitem, rfl⟩ := List.mem_map.1 hmem
      exact ih fields items item rfl hitems hitem ((Json.orderedItems_iff items).1 hlist item hitem)
    · have hvalues := (Json.orderedFields_iff fields).1 h.2
      rw [hread]
      refine .leaf ?_
      show ((Bindings.get? fields "value").getD .null).Ordered
      cases hget : Bindings.get? fields "value" with
      | none => trivial
      | some value => exact hvalues _ (Bindings.mem_of_get? hget)
    · rw [hread]
      exact .malformed h

/-! ### Values in order -/

/-- The fields of a leaf are found in order as they are found in the leaf. -/
theorem get?_ofList_toFields (operand : Operand) (name : String) :
    Bindings.get? (Bindings.ofList operand.toFields) name
      = Bindings.get? operand.toFields name := by
  refine Bindings.get?_ofList ?_ name
  unfold Operand.toFields
  cases operand.dataType <;> simp [Bindings.names]

/-- No field of a leaf is called like the operator of a condition. -/
theorem get?_operator_toFields (operand : Operand) :
    Bindings.get? operand.toFields "operator" = none := by
  unfold Operand.toFields
  cases operand.dataType <;> rfl

/-- The kind of a leaf is found among its fields in order. -/
theorem kindIn?_ofList_toFields (operand : Operand) :
    Operand.kindIn? (Bindings.ofList operand.toFields) = some operand.kind := by
  rw [Operand.kindIn?, get?_ofList_toFields]
  exact OperandKind.ofTag?_tag operand.kind

/-- The fields of a leaf in order are read as the leaf. -/
theorem ofJson_ofList_toFields (operand : Operand) :
    ofJson (.obj (Bindings.ofList operand.toFields)) = .leaf operand := by
  -- A leaf is read by looking its fields up, and in order they are found as before.
  have hread := ofJson_toJson_leaf operand
  rw [toJson, ofJson_of_kind (get?_operator_toFields operand)
    (OperandKind.ofTag?_tag operand.kind)] at hread
  rw [ofJson_of_kind ((get?_ofList_toFields operand _).trans (get?_operator_toFields operand))
    (kindIn?_ofList_toFields operand)]
  rw [← hread, Operand.ofFields, Operand.ofFields, get?_ofList_toFields, get?_ofList_toFields]

/-- The stored value of a condition, with the fields in order. -/
theorem ordered_toJson_condition (tag : OperatorTag) (operands : List Expr) :
    (toJson (.condition tag operands)).ordered = .obj (Bindings.ofList
      [("operator", .str tag.text),
        ("operands", .arr (operands.map fun operand => operand.toJson.ordered))]) := by
  rw [toJson, toItems_eq_map]
  simp only [Json.ordered, Json.orderedFields, Json.orderedItems_eq_map, List.map_map]
  rfl

/-- The stored value of a leaf, with the fields in order. -/
theorem ordered_toJson_leaf {operand : Operand} (h : operand.value.Ordered) :
    (toJson (.leaf operand)).ordered = .obj (Bindings.ofList operand.toFields) := by
  have hfields : Json.orderedFields operand.toFields = operand.toFields := by
    unfold Operand.toFields
    cases operand.dataType <;> simp [Json.orderedFields, Json.ordered, Json.ordered_eq_self h]
  rw [toJson, Json.ordered, hfields]

/-- Putting the fields of a stored tree in order does not change what is read, when the values
in the tree are in order. The reader looks fields up by their names, which finds the same in any
order. -/
theorem ofJson_ordered_toJson {t : Expr} (h : t.Ordered) :
    ofJson t.toJson.ordered = ofJson t.toJson := by
  induction t with
  | condition tag operands ih =>
    have hbelow := (everywhere_condition_iff.1 h).2
    rw [ofJson_toJson_condition, ordered_toJson_condition,
      ofJson_of_operands (Bindings.get?_ofList (by simp [Bindings.names]) _)
        (Bindings.get?_ofList (by simp [Bindings.names]) _), List.map_map]
    congr 1
    exact List.map_congr_left fun operand hmem => ih operand hmem (hbelow operand hmem)
  | leaf operand =>
    -- Here the order matters: a constant with its fields in another order would come back changed.
    rw [ofJson_toJson_leaf, ordered_toJson_leaf (everywhere_leaf_iff.1 h),
      ofJson_ofList_toFields]
  | malformed raw =>
    rw [toJson, Json.ordered_eq_self (everywhere_malformed_iff.1 h)]

/-- A tree that was read from a text is read again from the text under which it is stored. -/
theorem read_encode_ofJson {text : String} {v : Json} (h : Json.read text = .ok v) :
    (Json.read (ofJson v).encode).map ofJson = .ok (ofJson v) := by
  have hdepth : (ofJson v).toJson.depth ≤ Json.depthLimit :=
    Nat.le_trans (depth_toJson_ofJson_le v) (Json.depth_le_of_read h)
  have hordered := ordered_ofJson (Json.ordered_of_read h)
  rw [encode, Json.read_compact, Json.fit, if_pos hdepth]
  show Except.ok (ofJson (ofJson v).toJson.ordered) = _
  rw [ofJson_ordered_toJson hordered, ofJson_toJson_of_faithful (faithful_ofJson v)]

/-- **Storing a tree and reading it back.** Every tree `t` comes back exactly when all its nodes
are faithful, and then it is the very same; for a tree whose values are in order, it makes no
difference whether the stored fields are put in order. The tree that is read from a value `v` has
faithful nodes only, so it comes back. It is stored under no more levels of nesting than `v` has,
so it also comes back by way of its text when `v` was read from one. Only this last part is about
reading a text, and only it rests on what is assumed at `Json.read` and `Decimal.toBinary64?`. -/
theorem ofJson_toJson_same_iff (t : Expr) (v : Json) :
    ((ofJson t.toJson).same t = true ↔ t.Everywhere Faithful) ∧
    (t.Everywhere Faithful → ofJson t.toJson = t) ∧
    (t.Ordered → ((ofJson t.toJson.ordered).same t = true ↔ t.Everywhere Faithful)) ∧
    (ofJson v).Everywhere Faithful ∧
    (ofJson v).toJson.depth ≤ v.depth ∧
    ofJson (ofJson v).toJson = ofJson v ∧
    (v.Ordered → ofJson (ofJson v).toJson.ordered = ofJson v) ∧
    ∀ text, Json.read text = .ok v →
      (Json.read (ofJson v).encode).map ofJson = .ok (ofJson v) := by
  have hsame : (ofJson t.toJson).same t = true ↔ t.Everywhere Faithful := by
    constructor
    · exact faithful_of_same
    · intro h
      rw [ofJson_toJson_of_faithful h]
      exact same_self t
  have hagain : ofJson (ofJson v).toJson = ofJson v :=
    ofJson_toJson_of_faithful (faithful_ofJson v)
  refine ⟨hsame, ofJson_toJson_of_faithful, ?_, faithful_ofJson v, depth_toJson_ofJson_le v, hagain,
    ?_, fun text => read_encode_ofJson⟩
  · intro h
    rw [ofJson_ordered_toJson h]
    exact hsame
  · intro h
    rw [ofJson_ordered_toJson (ordered_ofJson h)]
    exact hagain

/-- A tree with an unknown operator and a malformed operand comes back. So does the tree of a
value with an operator that is no text. -/
theorem ofJson_toJson_same_odd :
    let t := Expr.condition (.unknown "xor") [.malformed (.arr []), .leaf (.ofVariable "a")]
    let v := Json.obj [("operands", .arr [.null]), ("operator", .bool true)]
    t.Ordered ∧ ofJson t.toJson = t ∧ (ofJson t.toJson.ordered).same t = true ∧
      v.Ordered ∧ Json.read v.compact = .ok v ∧
      (Json.read (ofJson v).encode).map ofJson = .ok (ofJson v) := by
  intro t v
  have hordered : t.Ordered := by
    refine .condition trivial fun operand hmem => ?_
    rcases List.mem_cons.1 hmem with rfl | hmem
    · exact .malformed trivial
    · rw [List.mem_singleton.1 hmem]
      exact .leaf trivial
  have hfaithful : t.Everywhere Faithful := by
    refine .condition (fun text h => ?_) fun operand hmem => ?_
    · cases h
      decide
    · rcases List.mem_cons.1 hmem with rfl | hmem
      · exact .malformed ⟨.arr [], rfl⟩
      · rw [List.mem_singleton.1 hmem]
        exact .leaf trivial
  have hnames : "operands" < "operator" := by decide
  have hsorted : Bindings.Sorted [("operands", Json.arr [.null]), ("operator", .bool true)] := by
    refine List.pairwise_cons.2 ⟨fun pair hpair => ?_, List.pairwise_singleton _ _⟩
    rw [List.mem_singleton.1 hpair]
    exact hnames
  have hv : v.Ordered := ⟨hsorted, ⟨trivial, trivial⟩, trivial, trivial⟩
  have hread : Json.read v.compact = .ok v := by
    rw [Json.read_compact, Json.ordered_eq_self hv]
    rfl
  obtain ⟨-, hself, hsame, -, -, -, -, htext⟩ := ofJson_toJson_same_iff t v
  exact ⟨hordered, hself hfaithful, (hsame hordered).2 hfaithful, hv, hread, htext _ hread⟩

end Expr

end EdgeGuard
