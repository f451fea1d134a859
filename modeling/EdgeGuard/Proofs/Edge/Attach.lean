import EdgeGuard.Proofs.Edge.Passes
import EdgeGuard.Proofs.Expr.Stored

/-!
# `EdgeGuard.Proofs.Edge.Attach`: a tree that was attached to an edge

An edge holds its condition as a text. On the way from the tree to a decision the text is freed of
blanks, read, and the value is read as a tree. For a tree that passes the check nothing is lost on
this way: the text has no blanks to lose (`trim_encode_condition`), reading gives the stored value
unless it nests too deep, the stored value is read as the tree, and nothing is dropped from it
(`decodeNotices_ordered_toJson`).

* `passes_withCondition`: asking the edge is evaluating the tree, up to the depth limit of the
  reader. Behind the limit the edge is refused.
-/

set_option autoImplicit false

namespace EdgeGuard

/-! ### Blanks around a stored text -/

/-- Characters without blanks at the ends are left as they are. Blanks inside are not looked at. -/
theorem Text.trimChars_eq_self {first last : Char} (hfirst : isBlank first = false)
    (hlast : isBlank last = false) (middle : List Char) :
    trimChars (first :: (middle ++ [last])) = first :: (middle ++ [last]) := by
  have hreverse : (first :: (middle ++ [last])).reverse = last :: (middle.reverse ++ [first]) := by
    simp
  rw [trimChars, List.dropWhile_cons_of_neg (by simp [hfirst]), hreverse,
    List.dropWhile_cons_of_neg (by simp [hlast]), ← hreverse, List.reverse_reverse]

/-- The text of an object stands between braces. -/
theorem Json.exists_write_obj (fields : List (String × Json)) :
    ∃ middle, (Json.obj fields).write [] = '\x7b' :: (middle ++ ['\x7d']) := by
  cases fields with
  | nil => exact ⟨[], rfl⟩
  | cons field more =>
    obtain ⟨name, value⟩ := field
    refine ⟨writeString name (':' :: value.write (writeFields more [])), ?_⟩
    -- The closing brace is the rest behind the last value, so it can be taken off at every step.
    have htail : writeFields more ['\x7d'] = writeFields more [] ++ ['\x7d'] :=
      writeFields_append (fun field _ => write_append field.2) [] ['\x7d']
    rw [write, htail, write_append]
    simp [writeString]

namespace Expr

variable {σ : Type}

/-- The stored text of a condition has no blanks around it. So trimming an attached condition gives
back the text that was attached. -/
theorem trim_encode_condition (tag : OperatorTag) (operands : List Expr) :
    Text.trim (encode (.condition tag operands)) = encode (.condition tag operands) := by
  obtain ⟨middle, hwrite⟩ := Json.exists_write_obj
    [("operator", .str tag.text), ("operands", .arr (toItems operands))]
  rw [encode, toJson, Json.compact, hwrite, Text.trim, String.toList_ofList,
    Text.trimChars_eq_self rfl rfl]

/-- The stored text of a condition is not empty. An empty text would count as no condition. -/
theorem encode_condition_ne_empty (tag : OperatorTag) (operands : List Expr) :
    encode (.condition tag operands) ≠ "" := by
  obtain ⟨middle, hwrite⟩ := Json.exists_write_obj
    [("operator", .str tag.text), ("operands", .arr (toItems operands))]
  intro h
  have hchars := congrArg String.toList h
  rw [encode, toJson, Json.compact, hwrite, String.toList_ofList] at hchars
  cases hchars

/-! ### What is dropped -/

/-- What is dropped from the operands is what is dropped from the list under `operands`. -/
theorem noticesIn_eq (fields : List (String × Json)) :
    noticesIn fields = ((Bindings.get? fields "operands").map noticesOf).getD [] := by
  induction fields with
  | nil => rfl
  | cons pair rest ih =>
    obtain ⟨name, value⟩ := pair
    simp only [noticesIn, Bindings.get?_cons, ih, eq_comm (a := name)]
    split <;> rfl

/-- What is dropped from a list is what is dropped from each of its items. -/
theorem noticesOfItems_eq_flatMap (items : List Json) :
    noticesOfItems items = items.flatMap decodeNotices := by
  induction items with
  | nil => rfl
  | cons value rest ih => rw [noticesOfItems, ih, List.flatMap_cons]

/-- Nothing is dropped from the stored fields of a leaf. A stored leaf has a data type that exists
or none, and a missing type is no loss. -/
theorem notices_ofList_toFields (operand : Operand) :
    Operand.notices (Bindings.ofList operand.toFields) = [] := by
  -- All keys that are written are keys of a leaf, and the data type is the tag of one.
  have hkeys : (Bindings.ofList operand.toFields).without Operand.keys = [] := by
    refine List.filter_eq_nil_iff.2 fun pair hpair => ?_
    have hmem := Bindings.mem_of_mem_ofList hpair
    unfold Operand.toFields at hmem
    cases hdataType : operand.dataType with
    | none =>
      rw [hdataType] at hmem
      simp only [List.mem_cons, List.not_mem_nil, or_false] at hmem
      rcases hmem with rfl | rfl <;> simp [Operand.keys]
    | some type =>
      rw [hdataType] at hmem
      simp only [List.mem_cons, List.not_mem_nil, or_false] at hmem
      rcases hmem with rfl | rfl | rfl <;> simp [Operand.keys]
  have htype : Bindings.get? operand.toFields "dataType"
      = operand.dataType.map fun type => .str type.tag := by
    unfold Operand.toFields
    cases operand.dataType <;> rfl
  unfold Operand.notices
  rw [hkeys, get?_ofList_toFields, htype]
  cases operand.dataType with
  | none => rfl
  | some type => simp [Operand.dataTypeOf?, Json.str?, Bindings.names]

/-- Nothing is dropped when a tree of sound nodes is read from its stored value. No node is
malformed, so all that is read are conditions and leaves in the form in which they are stored. -/
theorem decodeNotices_ordered_toJson {t : Expr} (hsound : t.Everywhere Sound) (h : t.Ordered) :
    decodeNotices t.toJson.ordered = [] := by
  induction t with
  | condition tag operands ih =>
    have hbelow := (everywhere_condition_iff.1 h).2
    have hsoundBelow := (everywhere_condition_iff.1 hsound).2
    have hget := @Bindings.get?_ofList Json [("operator", .str tag.text),
      ("operands", .arr (operands.map fun operand => operand.toJson.ordered))]
      (by simp [Bindings.names])
    have hoperator := hget "operator"
    have hoperands := hget "operands"
    rw [ordered_toJson_condition, decodeNotices, hoperator]
    show noticesIn _ = []
    rw [noticesIn_eq, hoperands]
    show noticesOfItems _ = []
    rw [noticesOfItems_eq_flatMap, List.flatMap_eq_nil_iff]
    intro item hitem
    obtain ⟨operand, hmem, rfl⟩ := List.mem_map.1 hitem
    exact ih operand hmem (hsoundBelow operand hmem) (hbelow operand hmem)
  | leaf operand =>
    -- No field of a leaf has the name `operator`, so it is taken for a leaf again.
    rw [ordered_toJson_leaf (everywhere_leaf_iff.1 h), decodeNotices,
      (get?_ofList_toFields operand _).trans (get?_operator_toFields operand)]
    show (if (Operand.kindIn? (Bindings.ofList operand.toFields)).isSome then
      Operand.notices (Bindings.ofList operand.toFields) else []) = []
    rw [notices_ofList_toFields, ite_self]
  | malformed raw => exact absurd (everywhere_malformed_iff.1 hsound) (by simp [Sound])

/-- A sound node comes back from its stored value. -/
theorem faithful_of_sound {t : Expr} (h : t.Everywhere Sound) : t.Everywhere Faithful := by
  refine Everywhere.mono (fun node hnode => ?_) h
  cases node with
  | condition tag operands =>
    obtain ⟨operator, rfl, -⟩ := hnode
    intro text htext
    cases htext
  | leaf operand => trivial
  | malformed raw => exact absurd hnode (by simp [Sound])

end Expr

namespace Edge

variable {σ : Type}

/-! ### The edge -/

/-- The stored value of an attached condition is read up to the depth limit. The one thing that can
go wrong is the depth, so the result is stated with `Json.fit`. -/
theorem conditionJson?_withCondition (edge : Edge) {t : Expr} (h : t.isCondition = true) :
    (edge.withCondition t).conditionJson?
      = (Json.fit t.toJson.depth Json.depthLimit t.toJson.ordered).map some := by
  cases t with
  | condition tag operands =>
    unfold conditionJson? conditionText? withCondition
    simp only [Expr.trim_encode_condition, if_neg (Expr.encode_condition_ne_empty tag operands)]
    rw [Expr.encode, Json.read_compact]
  | leaf operand => cases h
  | malformed raw => cases h

/-- An attached tree that passes the check is read again when it does not nest too deep. -/
theorem conditionJson?_of_check (edge : Edge) {t : Expr} (hcheck : t.check = .ok ())
    (hdepth : t.toJson.depth ≤ Json.depthLimit) :
    (edge.withCondition t).conditionJson? = .ok (some t.toJson.ordered) := by
  rw [conditionJson?_withCondition edge ((Expr.check_eq_ok_iff t).1 hcheck).1, Json.fit,
    if_pos hdepth]
  rfl

/-- An attached tree that nests too deep cannot be read. -/
theorem conditionJson?_of_deep (edge : Edge) {t : Expr} (hcheck : t.check = .ok ())
    (hdepth : Json.depthLimit < t.toJson.depth) :
    (edge.withCondition t).conditionJson? = .error .malformed := by
  rw [conditionJson?_withCondition edge ((Expr.check_eq_ok_iff t).1 hcheck).1, Json.fit,
    if_neg (Nat.not_le.2 hdepth)]
  rfl

/-- A tree that passes the check has sound nodes only, so it comes back from its stored value. The
stored text has the fields of every object in order, which changes no value that is in order
already. -/
theorem ofJson_ordered_toJson_of_check {t : Expr} (hordered : t.Ordered)
    (hcheck : t.check = .ok ()) : Expr.ofJson t.toJson.ordered = t := by
  have hsound := ((Expr.check_eq_ok_iff t).1 hcheck).2
  rw [Expr.ofJson_ordered_toJson hordered,
    Expr.ofJson_toJson_of_faithful (Expr.faithful_of_sound hsound)]

/-- The tree that an edge is asked for is the one that was attached. -/
theorem asked?_withCondition (edge : Edge) {t : Expr} (hordered : t.Ordered)
    (hcheck : t.check = .ok ()) (hdepth : t.toJson.depth ≤ Json.depthLimit) :
    (edge.withCondition t).asked? = some t := by
  have hread : (edge.withCondition t).condition? = .ok (some t) :=
    (condition?_eq_some_iff _ t).2 ⟨t.toJson.ordered, conditionJson?_of_check edge hcheck hdepth,
      ofJson_ordered_toJson_of_check hordered hcheck⟩
  exact (asked?_eq_some_iff _ t).2 ⟨rfl, hread, hcheck⟩

/-- **Asking an edge with an attached tree is evaluating the tree.** Let `t` be any tree that passes
the check. Attaching it always succeeds, makes the edge conditional and leaves its names as they
are. When the stored value of `t` nests at most 127 levels deep, the condition of the edge is `t`
itself, and the edge passes as `t` decides, in a run that differs from that of `t` in the last
notice only: it makes the same calls in the same order and leaves the same world. When the value
nests deeper, the condition cannot be read, and the edge is refused without a call.

That the values in `t` are in order is no restriction on the tree: an object of a running program
keeps its names sorted, and only a list of fields can have them in another order. Trees that were
read are of this kind in any case (`Expr.ordered_ofJson`). That the tree comes back with its
doubles unchanged rests on the one rounding of `Decimal.toBinary64?`. -/
theorem passes_withCondition (context : Context σ) {t : Expr} (hordered : t.Ordered)
    (hcheck : t.check = .ok ()) (id source target : String) (start : Run σ) :
    let edge := (between id source target).withCondition t
    let decided := t.evaluate context start
    (edge.isConditional = true ∧ edge.id = id ∧ edge.source = source ∧ edge.target = target ∧
      edge.label = none) ∧
    (t.toJson.depth ≤ 127 →
      edge.condition? = .ok (some t) ∧
      edge.passes context start
        = (decided.1, decided.2.note (.decidedEdge id source target decided.1))) ∧
    (127 < t.toJson.depth →
      edge.condition? = .error .malformed ∧
      edge.passes context start = (false, start.note (.unreadableCondition id))) := by
  intro edge decided
  have hsound := ((Expr.check_eq_ok_iff t).1 hcheck).2
  have hread : Expr.ofJson t.toJson.ordered = t := ofJson_ordered_toJson_of_check hordered hcheck
  refine ⟨⟨rfl, rfl, rfl, rfl, rfl⟩, fun hdepth => ?_, fun hdepth => ?_⟩
  · have hraw : edge.conditionJson? = .ok (some t.toJson.ordered) :=
      conditionJson?_of_check (between id source target) hcheck hdepth
    refine ⟨(condition?_eq_some_iff edge t).2 ⟨_, hraw, hread⟩, ?_⟩
    have hstored := @passesWith_of_check σ t.toJson.ordered (by rw [hread, hcheck]) context
      edge start
    simp only [hread, Expr.decodeNotices_ordered_toJson hsound hordered] at hstored
    rw [passes_of_readable rfl hraw, hstored]
    -- Without notices of its own the stored value is decided in the run of the tree.
    have hstart : start.noteAll [] = start := by simp [Run.noteAll]
    rw [hstart]
    rfl
  · have hraw : edge.conditionJson? = .error .malformed :=
      conditionJson?_of_deep (between id source target) hcheck hdepth
    refine ⟨?_, passes_of_unreadable rfl hraw context start⟩
    rw [condition?, hraw]
    rfl

/-- Arrays nested this deep around null. -/
def nestedArray : Nat → Json
  | 0 => .null
  | levels + 1 => .arr [nestedArray levels]

/-- The tree that compares a call with a constant of nested arrays. -/
def tickEqualsNested (levels : Nat) : Expr :=
  .condition (.known .eq) [.leaf (.ofFunction "tick"), .leaf (.ofConstant (nestedArray levels))]

/-- Arrays around null have no fields that could be out of order. -/
theorem ordered_nestedArray (levels : Nat) : (nestedArray levels).Ordered := by
  induction levels with
  | zero => trivial
  | succ levels ih => exact ⟨ih, trivial⟩

/-- Nested arrays are as deep as they say. -/
theorem depth_nestedArray (levels : Nat) : (nestedArray levels).depth = levels := by
  induction levels with
  | zero => rfl
  | succ levels ih => simp [nestedArray, Json.depth, Json.depthItems, ih]

/-- The values in the tree are in order, as attaching it asks for. -/
theorem ordered_tickEqualsNested (levels : Nat) : (tickEqualsNested levels).Ordered := by
  refine .condition trivial fun operand hmem => ?_
  rcases List.mem_cons.1 hmem with rfl | hmem
  · exact .leaf trivial
  · rw [List.mem_singleton.1 hmem]
    exact .leaf (ordered_nestedArray levels)

/-- The operands stand in an object and an array, and the constant in an object. -/
theorem depth_tickEqualsNested (levels : Nat) :
    (tickEqualsNested levels).toJson.depth = levels + 3 := by
  simp [tickEqualsNested, Expr.toJson, Expr.toItems, Operand.toFields, Operand.ofFunction,
    Operand.ofConstant, Json.depth, Json.depthItems, Json.depthFields, depth_nestedArray]

/-- The two sides of the depth limit: at 127 levels the edge calls the function, and at 128 levels
it is refused without a call. -/
theorem passes_withCondition_at_limit :
    let context := Context.empty.setFunction "tick" fun count : Nat => (.value .null, count + 1)
    let attached levels := (between "e" "a" "b").withCondition (tickEqualsNested levels)
    let start := Run.start 5
    (tickEqualsNested 124).toJson.depth = 127 ∧
      (attached 124).condition? = .ok (some (tickEqualsNested 124)) ∧
      ((attached 124).passes context start).2.calls = ["tick"] ∧
      ((attached 124).passes context start).2.world = 6 ∧
      (tickEqualsNested 125).toJson.depth = 128 ∧
      (attached 125).condition? = .error .malformed ∧
      (attached 125).passes context start = (false, start.note (.unreadableCondition "e")) := by
  intro context attached start
  obtain ⟨-, hread, -⟩ :=
    passes_withCondition context (ordered_tickEqualsNested 124) rfl "e" "a" "b" start
  obtain ⟨-, -, hdeep⟩ :=
    passes_withCondition context (ordered_tickEqualsNested 125) rfl "e" "a" "b" start
  obtain ⟨hcondition, hpasses⟩ := hread (Nat.le_of_eq (depth_tickEqualsNested 124))
  obtain ⟨hunreadable, hrefused⟩ := hdeep (by rw [depth_tickEqualsNested]; decide)
  have hasked : (attached 124).passes context start = _ := hpasses
  refine ⟨depth_tickEqualsNested 124, hcondition, ?_, ?_, depth_tickEqualsNested 125, hunreadable,
    hrefused⟩
  · rw [hasked]
    rfl
  · rw [hasked]
    rfl

end Edge

end EdgeGuard
