import EdgeGuard.Proofs.Expr.Grammar
import EdgeGuard.Proofs.Expr.Stored
import EdgeGuard.Proofs.Json.Equal

/-!
# `EdgeGuard.Proofs.Expr.Canonical`: which stored values come back

Reading a value as a tree and storing this tree gives a value again (`Expr.restored`). Two shapes of
objects are taken apart on the way and put together from what a tree keeps: a condition keeps its
operator, as a text, and its operands, and a leaf keeps its type, its value and a data type that
exists. Everything else is kept as it is. `Json.Lossy` lists what is lost or changed in this way,
and a value without any of it is canonical.

* `restored_condition`, `restored_leaf`, `restored_of_malformed`: what comes back, for each shape.
* `restored_of_canonical`: a canonical value is the one that its shape is put together to. Its
  steps are `restored_condition_of_canonical` and `restored_leaf_of_canonical`.
* `not_same_of_lossy`: a loss at any depth is seen in the names of an object or in one value.
* `restored_eq_self_iff`: the two halves together, also for texts.
-/

set_option autoImplicit false

namespace EdgeGuard

/-- The names of the data types that a leaf may declare. -/
def typeNames : List String := ["string", "number", "boolean", "date", "object", "array"]

namespace Json

/-- The text that is stored for an operator: a text as it is, another value as its own text. A tree
holds its operator as a text, so another value is stored as its compact text from then on. -/
def operatorText : Json → String
  | .str text => text
  | raw => raw.compact

/-- The data type that is stored for a leaf, as a field: the declared one when there is a type of
the name. It is a list so that the field can be put in front of the others or left out. -/
def declaredType (fields : List (String × Json)) : List (String × Json) :=
  match Bindings.get? fields "dataType" with
  | some (.str type) => if type ∈ typeNames then [("dataType", .str type)] else []
  | _ => []

/-- A value in which something is lost or changed when it is stored as a tree. -/
inductive Lossy : Json → Prop
  /-- A condition has a key besides its operator and its operands. -/
  | conditionKey {fields : List (String × Json)} {tag : Json} {items : List Json} {name : String}
      (operator : Bindings.get? fields "operator" = some tag)
      (operands : Bindings.get? fields "operands" = some (.arr items))
      (key : name ∈ Bindings.names fields) (extra : name ∉ ["operator", "operands"]) :
      Lossy (.obj fields)
  /-- The operator of a condition is no text. -/
  | operator {fields : List (String × Json)} {tag : Json} {items : List Json}
      (operator : Bindings.get? fields "operator" = some tag)
      (operands : Bindings.get? fields "operands" = some (.arr items))
      (odd : ∀ text, tag ≠ .str text) : Lossy (.obj fields)
  /-- Something is lost in an operand. -/
  | operand {fields : List (String × Json)} {tag item : Json} {items : List Json}
      (operator : Bindings.get? fields "operator" = some tag)
      (operands : Bindings.get? fields "operands" = some (.arr items))
      (mem : item ∈ items) (lossy : Lossy item) : Lossy (.obj fields)
  /-- A leaf has no value. -/
  | value {fields : List (String × Json)} {tag : String}
      (operator : Bindings.get? fields "operator" = none)
      (type : Bindings.get? fields "type" = some (.str tag)) (known : tag ∈ leafTags)
      (value : Bindings.get? fields "value" = none) : Lossy (.obj fields)
  /-- A leaf has a key besides its type, its value and its data type. -/
  | leafKey {fields : List (String × Json)} {tag name : String}
      (operator : Bindings.get? fields "operator" = none)
      (type : Bindings.get? fields "type" = some (.str tag)) (known : tag ∈ leafTags)
      (key : name ∈ Bindings.names fields) (extra : name ∉ ["type", "value", "dataType"]) :
      Lossy (.obj fields)
  /-- A leaf declares a data type that does not exist. -/
  | dataType {fields : List (String × Json)} {tag : String} {raw : Json}
      (operator : Bindings.get? fields "operator" = none)
      (type : Bindings.get? fields "type" = some (.str tag)) (known : tag ∈ leafTags)
      (declared : Bindings.get? fields "dataType" = some raw)
      (odd : ∀ name ∈ typeNames, raw ≠ .str name) : Lossy (.obj fields)

/-- A value in which nothing is lost. It is the losses that are listed, since each has a place in the
value and a reason. -/
def Canonical (v : Json) : Prop := ¬ v.Lossy

/-! ### Names and values of the same objects -/

/-- Objects with the same fields have the same names in the same order. Stored values are compared
in the order of their fields, so a key that is dropped is seen here. -/
theorem names_eq_of_sameFields {fields others : List (String × Json)}
    (h : sameFields fields others = true) : Bindings.names fields = Bindings.names others := by
  induction fields generalizing others with
  | nil =>
    cases others with
    | nil => rfl
    | cons other rest => cases h
  | cons field rest ih =>
    obtain ⟨name, value⟩ := field
    cases others with
    | nil => cases h
    | cons other more =>
      obtain ⟨key, bound⟩ := other
      simp only [sameFields, Bool.and_eq_true, beq_iff_eq] at h
      obtain ⟨⟨rfl, -⟩, hrest⟩ := h
      show name :: Bindings.names rest = name :: Bindings.names more
      rw [ih hrest]

/-- Under one name, objects with the same fields have the same values. The fields of both are found
at the same place, since their names are the same in the same order. -/
theorem same_of_sameFields {fields others : List (String × Json)}
    (h : sameFields fields others = true) {name : String} {value other : Json}
    (hvalue : Bindings.get? fields name = some value)
    (hother : Bindings.get? others name = some other) : value.same other = true := by
  induction fields generalizing others with
  | nil => cases hvalue
  | cons field rest ih =>
    obtain ⟨key, bound⟩ := field
    cases others with
    | nil => cases hother
    | cons pair more =>
      obtain ⟨key', bound'⟩ := pair
      simp only [sameFields, Bool.and_eq_true, beq_iff_eq] at h
      obtain ⟨⟨rfl, hfirst⟩, hrest⟩ := h
      rw [Bindings.get?_cons] at hvalue hother
      -- Either both lookups find the first field, or both go on behind it.
      by_cases hname : name = key
      · rw [if_pos hname] at hvalue hother
        cases hvalue
        cases hother
        exact hfirst
      · rw [if_neg hname] at hvalue hother
        exact ih hrest hvalue hother

/-- A list is the same as what is made of its items only when each item is. -/
theorem same_of_sameItems_map {again : Json → Json} {items : List Json}
    (h : sameItems (items.map again) items = true) :
    ∀ item ∈ items, (again item).same item = true := by
  induction items with
  | nil => exact fun item hmem => absurd hmem List.not_mem_nil
  | cons first rest ih =>
    rw [List.map_cons, sameItems, Bool.and_eq_true] at h
    exact List.forall_mem_cons.2 ⟨h.1, ih h.2⟩

end Json

/-- A text names a data type when a type has it as its tag. The list is written out for the
statement of `Json.Lossy`, and this ties it to the types that there are. -/
theorem mem_typeNames_iff (name : String) :
    name ∈ typeNames ↔ ∃ type : DataType, type.tag = name := by
  have hall : ∀ name ∈ typeNames, (DataType.ofTag? name).isSome := by decide
  constructor
  · intro h
    obtain ⟨type, htype⟩ := Option.isSome_iff_exists.1 (hall name h)
    exact ⟨type, by simpa using List.find?_some htype⟩
  · rintro ⟨type, rfl⟩
    cases type <;> decide

/-- A declared type is stored when it is read, and then it is the same text. Otherwise nothing is
read from the field and nothing is stored. There is no third case, so every proof about leaves has
these two. -/
theorem Json.declaredType_cases (fields : List (String × Json)) :
    (∃ type : DataType, (Bindings.get? fields "dataType").bind Operand.dataTypeOf? = some type ∧
        Bindings.get? fields "dataType" = some (.str type.tag) ∧
        declaredType fields = [("dataType", .str type.tag)]) ∨
      ((Bindings.get? fields "dataType").bind Operand.dataTypeOf? = none ∧
        (∀ type : DataType, Bindings.get? fields "dataType" ≠ some (.str type.tag)) ∧
        declaredType fields = []) := by
  unfold declaredType
  -- A type is kept only when it is a text with the name of one. In all other cases the field is
  -- lost.
  cases hraw : Bindings.get? fields "dataType" with
  | none => exact .inr ⟨rfl, by simp, rfl⟩
  | some raw =>
    cases raw with
    | str name =>
      by_cases hname : name ∈ typeNames
      · obtain ⟨type, rfl⟩ := (mem_typeNames_iff name).1 hname
        refine .inl ⟨type, DataType.ofTag?_tag type, rfl, ?_⟩
        simp only [if_pos hname]
      · have hnone : DataType.ofTag? name = none := by
          cases htype : DataType.ofTag? name with
          | none => rfl
          | some type =>
            have htag : type.tag = name := by simpa using List.find?_some htype
            exact absurd ((mem_typeNames_iff name).2 ⟨type, htag⟩) hname
        refine .inr ⟨hnone, fun type heq => ?_, ?_⟩
        · cases heq
          exact hname ((mem_typeNames_iff _).2 ⟨type, rfl⟩)
        · simp only [if_neg hname]
    | _ => exact .inr ⟨rfl, by simp, rfl⟩

namespace Expr

/-- The value that comes back when the tree of a value is stored. -/
def restored (v : Json) : Json := (ofJson v).toJson.ordered

/-! ### What comes back -/

/-- A condition comes back with its operator and its operands, and these come back in their turn.
The fields are stored with the operator in front, and stand in the order of their names when they
are read again. -/
theorem restored_condition {fields : List (String × Json)} {tag : Json} {items : List Json}
    (htag : Bindings.get? fields "operator" = some tag)
    (hitems : Bindings.get? fields "operands" = some (.arr items)) :
    restored (.obj fields) = .obj
      [("operands", .arr (items.map restored)), ("operator", .str tag.operatorText)] := by
  -- The text of a known operator is its tag, which is the text that it was read from.
  have htext : (OperatorTag.ofJson tag).text = tag.operatorText := by
    cases tag with
    | str text =>
      show (OperatorTag.ofText text).text = text
      rw [OperatorTag.ofText]
      split
      · next operator hfound => exact Operator.tag_of_ofTag? hfound
      · rfl
    | _ => rfl
  rw [restored, ofJson_of_operands htag hitems, ordered_toJson_condition, htext, List.map_map]
  -- The operands stand before the operator in the order of the names.
  have hbefore : "operands" < "operator" := by decide
  simp only [Bindings.ofList, List.foldl_cons, List.foldl_nil, Bindings.insert, hbefore, if_true]
  rfl

/-- A leaf comes back with its type, its value or null, and a data type that exists. A missing value
is stored as null. The data type is stored last and comes first in the order of the names, which is
where `Json.declaredType` stands here. -/
theorem restored_leaf {fields : List (String × Json)} {tag : String}
    (hfields : (Json.obj fields).Ordered) (hnone : Bindings.get? fields "operator" = none)
    (htype : Bindings.get? fields "type" = some (.str tag)) (hknown : tag ∈ leafTags) :
    restored (.obj fields) = .obj (Json.declaredType fields ++
      [("type", .str tag), ("value", (Bindings.get? fields "value").getD .null)]) := by
  obtain ⟨kind, hkind⟩ := (mem_leafTags_iff tag).1 hknown
  obtain rfl : kind.tag = tag := by simpa using List.find?_some hkind
  have hkindIn : Operand.kindIn? fields = some kind := by
    rw [Operand.kindIn?, htype]
    exact hkind
  have hread := ofJson_of_kind hnone hkindIn
  have hvalue := ordered_ofJson hfields
  rw [hread] at hvalue
  rw [restored, hread, ordered_toJson_leaf (everywhere_leaf_iff.1 hvalue), Operand.toFields,
    Operand.ofFields]
  -- The data type, which is stored last, comes first in the order of the names.
  have hfirst : "dataType" < "type" := by decide
  have hlast : ¬ "value" < "type" := by decide
  rcases Json.declaredType_cases fields with ⟨type, hread, -, hdeclared⟩ | ⟨hread, -, hdeclared⟩
  · rw [hdeclared, hread]
    simp [Bindings.ofList, Bindings.insert, hfirst, hlast]
  · rw [hdeclared, hread]
    simp [Bindings.ofList, Bindings.insert, hlast]

/-- What is kept as a malformed node comes back as it is. -/
theorem restored_of_malformed {v : Json} (hv : v.Ordered) (h : ofJson v = .malformed v) :
    restored v = v := by
  rw [restored, h, toJson, Json.ordered_eq_self hv]

/-- The items of a list inside an ordered object are in order. -/
theorem ordered_of_operands {fields : List (String × Json)} {items : List Json}
    (hfields : (Json.obj fields).Ordered)
    (hitems : Bindings.get? fields "operands" = some (.arr items)) :
    ∀ item ∈ items, item.Ordered :=
  (Json.orderedItems_iff items).1
    ((Json.orderedFields_iff fields).1 hfields.2 _ (Bindings.mem_of_get? hitems))

/-- An object is what comes back when its lookups find the same. Both have their fields in order. So
it is shown of one name at a time that a canonical object comes back. -/
theorem restored_eq_of_get? {fields others : List (String × Json)}
    (hfields : (Json.obj fields).Ordered) (hrestored : restored (.obj fields) = .obj others)
    (h : ∀ name, Bindings.get? others name = Bindings.get? fields name) :
    restored (.obj fields) = .obj fields := by
  -- What comes back is in order whatever the value was, and names in order are determined by what
  -- they are bound to.
  have hothers : (Json.obj others).Ordered := by
    rw [← hrestored]
    exact Json.ordered_of_ordered _
  rw [hrestored, Bindings.eq_of_get?_eq hothers.1 hfields.1 h]

/-- A lookup in the three keys of a leaf, of which the data type may be missing. It is the lookup on
the side of what comes back, for a leaf with or without a data type. -/
theorem get?_leafFields (declared : Option Json) (type value : Json) (name : String) :
    Bindings.get? ((declared.map fun raw => ("dataType", raw)).toList ++
        [("type", type), ("value", value)]) name
      = if name = "dataType" then declared else if name = "type" then some type
        else if name = "value" then some value else none := by
  cases declared with
  | some raw => simp [Bindings.get?_cons]
  | none =>
    by_cases hname : name = "dataType"
    · subst hname
      rfl
    · simp [Bindings.get?_cons, hname]

/-- A type that does not exist would be lost, so a canonical leaf declares one that does, or none. -/
theorem declaredType_of_canonical {fields : List (String × Json)} {tag : String}
    (hnone : Bindings.get? fields "operator" = none)
    (htype : Bindings.get? fields "type" = some (.str tag)) (hknown : tag ∈ leafTags)
    (h : (Json.obj fields).Canonical) :
    Json.declaredType fields
      = ((Bindings.get? fields "dataType").map fun raw => ("dataType", raw)).toList := by
  rcases Json.declaredType_cases fields with ⟨type, -, hdata, hlist⟩ | ⟨-, hodd, hlist⟩
  · rw [hlist, hdata]
    rfl
  · have hdata : Bindings.get? fields "dataType" = none := by
      cases hget : Bindings.get? fields "dataType" with
      | none => rfl
      | some raw =>
        refine absurd (.dataType hnone htype hknown hget fun name hname heq => ?_) h
        obtain ⟨type, rfl⟩ := (mem_typeNames_iff name).1 hname
        exact hodd type (hget.trans (congrArg some heq))
    rw [hlist, hdata]
    rfl

/-- A canonical condition comes back as it is when its operands do. Its operator is a text and it
has no other key, as each of these would be a loss. -/
theorem restored_condition_of_canonical {fields : List (String × Json)} {tag : Json}
    {items : List Json} (hv : (Json.obj fields).Ordered)
    (htag : Bindings.get? fields "operator" = some tag)
    (hitems : Bindings.get? fields "operands" = some (.arr items))
    (h : (Json.obj fields).Canonical) (hsame : items.map restored = items) :
    restored (.obj fields) = .obj fields := by
  obtain ⟨text, rfl⟩ : ∃ text, tag = .str text := by
    by_contra hodd
    exact h (.operator htag hitems fun text heq => hodd ⟨text, heq⟩)
  refine restored_eq_of_get? hv (restored_condition htag hitems) fun name => ?_
  rw [hsame, Bindings.get?_cons, Bindings.get?_cons, Bindings.get?_nil]
  by_cases hoperands : name = "operands"
  · rw [if_pos hoperands, hoperands, hitems]
  · by_cases hoperator : name = "operator"
    · rw [if_neg hoperands, if_pos hoperator, hoperator, htag]
      rfl
    · -- Any other key would be lost.
      rw [if_neg hoperands, if_neg hoperator]
      cases hget : Bindings.get? fields name with
      | none => rfl
      | some value =>
        have hname := (Bindings.mem_names_iff fields name).2 ⟨value, hget⟩
        exact absurd (.conditionKey htag hitems hname (by simp [hoperands, hoperator])) h

/-- A canonical leaf comes back as it is. It has a value and no key but the three, and its data type
exists if it declares one. -/
theorem restored_leaf_of_canonical {fields : List (String × Json)} {tag : String}
    (hv : (Json.obj fields).Ordered) (hnone : Bindings.get? fields "operator" = none)
    (htype : Bindings.get? fields "type" = some (.str tag)) (hknown : tag ∈ leafTags)
    (h : (Json.obj fields).Canonical) : restored (.obj fields) = .obj fields := by
  -- Without a value the leaf would come back with null.
  obtain ⟨value, hvalue⟩ : ∃ value, Bindings.get? fields "value" = some value := by
    cases hget : Bindings.get? fields "value" with
    | none => exact absurd (.value hnone htype hknown hget) h
    | some value => exact ⟨value, rfl⟩
  refine restored_eq_of_get? hv (restored_leaf hv hnone htype hknown) fun name => ?_
  rw [declaredType_of_canonical hnone htype hknown h, hvalue, Option.getD_some, get?_leafFields]
  split
  · next hname => rw [hname]
  split
  · next hname => rw [hname, htype]
  split
  · next hname => rw [hname, hvalue]
  · next hdata htypeName hvalueName =>
    -- Any other key would be lost.
    cases hget : Bindings.get? fields name with
    | none => rfl
    | some found =>
      have hname := (Bindings.mem_names_iff fields name).2 ⟨found, hget⟩
      have hextra : name ∉ ["type", "value", "dataType"] := by
        simp [hdata, htypeName, hvalueName]
      exact absurd (.leafKey hnone htype hknown hname hextra) h

/-- A canonical value comes back as it is. The induction goes down the operands of conditions.
Leaves and malformed values are not looked into. -/
theorem restored_of_canonical {v : Json} (hv : v.Ordered) (h : v.Canonical) : restored v = v := by
  induction v using operandInduction with
  | step v ih =>
    rcases ofJson_cases v with ⟨fields, tag, items, rfl, htag, hitems, -⟩ |
      ⟨fields, kind, rfl, hnone, hkind, -⟩ | hread
    · -- What is lost in an operand is lost in the condition, so the operands are canonical.
      refine restored_condition_of_canonical hv htag hitems h ?_
      rw [List.map_congr_left fun item hmem => ?_, List.map_id']
      exact ih fields items item rfl hitems hmem (ordered_of_operands hv hitems item hmem)
        fun hlossy => h (.operand htag hitems hmem hlossy)
    · obtain ⟨tag, htype, hknown⟩ := (exists_kindIn?_iff fields).1 ⟨kind, hkind⟩
      exact restored_leaf_of_canonical hv hnone htype hknown h
    · exact restored_of_malformed hv hread

/-- Something that is lost, at any depth, is seen in what comes back. The comparison is the one of
stored values, which takes both zeros of the doubles as one and is weaker than equality. So it also
follows that the value that comes back is another one. -/
theorem not_same_of_lossy {v : Json} (hv : v.Ordered) (h : v.Lossy) :
    (restored v).same v ≠ true := by
  -- The induction is on where something is lost. A key that is too many is seen in the names of the
  -- object, everything else in one value.
  induction h with
  | @conditionKey fields tag items name htag hitems hkey hextra =>
    intro hsame
    rw [restored_condition htag hitems, Json.same] at hsame
    rw [← Json.names_eq_of_sameFields hsame] at hkey
    rcases List.mem_pair.1 hkey with rfl | rfl
    · exact hextra (by simp)
    · exact hextra (by simp)
  | @operator fields tag items htag hitems hodd =>
    intro hsame
    rw [restored_condition htag hitems, Json.same] at hsame
    have htags := Json.same_of_sameFields hsame rfl htag
    cases tag with
    | str text => exact hodd text rfl
    | _ => cases htags
  | @operand fields tag item items htag hitems hmem _ ih =>
    intro hsame
    rw [restored_condition htag hitems, Json.same] at hsame
    have hlists := Json.same_of_sameFields hsame rfl hitems
    rw [Json.same] at hlists
    exact ih (ordered_of_operands hv hitems item hmem)
      (Json.same_of_sameItems_map hlists item hmem)
  | @value fields tag hnone htype hknown hvalue =>
    intro hsame
    rw [restored_leaf hv hnone htype hknown, Json.same] at hsame
    have hname : "value" ∈ Bindings.names fields := by
      rw [← Json.names_eq_of_sameFields hsame]
      simp [Bindings.names]
    obtain ⟨value, hget⟩ := (Bindings.mem_names_iff fields "value").1 hname
    rw [hvalue] at hget
    cases hget
  | @leafKey fields tag name hnone htype hknown hkey hextra =>
    intro hsame
    rw [restored_leaf hv hnone htype hknown, Json.same] at hsame
    rw [← Json.names_eq_of_sameFields hsame] at hkey
    -- The names that come back are two or all three of a leaf.
    refine hextra ?_
    rcases Json.declaredType_cases fields with ⟨type, -, -, hlist⟩ | ⟨-, -, hlist⟩
    · rw [hlist] at hkey
      rcases List.mem_cons.1 hkey with rfl | hkey
      · simp
      · rcases List.mem_pair.1 hkey with rfl | rfl <;> simp
    · rw [hlist] at hkey
      rcases List.mem_pair.1 hkey with rfl | rfl <;> simp
  | @dataType fields tag raw hnone htype hknown hdeclared hodd =>
    intro hsame
    rw [restored_leaf hv hnone htype hknown, Json.same] at hsame
    have hname : "dataType" ∈ Bindings.names fields :=
      (Bindings.mem_names_iff fields "dataType").2 ⟨raw, hdeclared⟩
    rw [← Json.names_eq_of_sameFields hsame] at hname
    rcases Json.declaredType_cases fields with ⟨type, -, hdata, -⟩ | ⟨-, -, hlist⟩
    · rw [hdeclared] at hdata
      cases hdata
      exact hodd _ ((mem_typeNames_iff _).2 ⟨type, rfl⟩) rfl
    · simp [hlist, Bindings.names] at hname

/-- **What storing a tree keeps of a value.** Let a value with its fields in order be read as a
tree, and the tree be stored.

* The value comes back exactly when it is canonical, whether it is compared as a whole or as stored
  values are, and also when it was read from a text and is read again from the stored text. The last
  of these alone rests on what is assumed at `Json.read` and `Decimal.toBinary64?`.
* A condition comes back with its operator as a text and with its operands, each as it comes back
  itself. All other keys are dropped.
* A leaf comes back with its type, with its value or null, and with its data type if there is one of
  the name. All other keys are dropped. -/
theorem restored_eq_self_iff (v : Json) (hv : v.Ordered) :
    (restored v = v ↔ v.Canonical) ∧
      ((restored v).same v = true ↔ v.Canonical) ∧
      (∀ text, Json.read text = .ok v →
        (Json.read (ofJson v).encode = .ok v ↔ v.Canonical)) ∧
      (∀ fields tag items, v = .obj fields → Bindings.get? fields "operator" = some tag →
        Bindings.get? fields "operands" = some (.arr items) →
        restored v = .obj
          [("operands", .arr (items.map restored)), ("operator", .str tag.operatorText)]) ∧
      ∀ fields tag, v = .obj fields → Bindings.get? fields "operator" = none →
        Bindings.get? fields "type" = some (.str tag) → tag ∈ leafTags →
        restored v = .obj (Json.declaredType fields ++
          [("type", .str tag), ("value", (Bindings.get? fields "value").getD .null)]) := by
  have hsame : (restored v).same v = true ↔ v.Canonical := by
    constructor
    · intro h hlossy
      exact not_same_of_lossy hv hlossy h
    · intro h
      rw [restored_of_canonical hv h]
      exact Json.same_self v
  have heq : restored v = v ↔ v.Canonical := by
    constructor
    · intro h
      refine hsame.1 ?_
      rw [h]
      exact Json.same_self v
    · exact restored_of_canonical hv
  refine ⟨heq, hsame, fun text htext => ?_, ?_, ?_⟩
  · -- Storing makes no value deeper, so the stored text is read.
    have hdepth : (ofJson v).toJson.depth ≤ Json.depthLimit :=
      Nat.le_trans (depth_toJson_ofJson_le v) (Json.depth_le_of_read htext)
    rw [encode, Json.read_compact, Json.fit, if_pos hdepth, ← heq, Except.ok.injEq]
    rfl
  · rintro fields tag items rfl htag hitems
    exact restored_condition htag hitems
  · rintro fields tag rfl hnone htype hknown
    exact restored_leaf hv hnone htype hknown

/-- An object loses a key, the kind of its operator, and two things in its operand: a data type that
does not exist, and that there is no value. Its text is not the text that is stored. -/
theorem restored_eq_self_iff_of_odd :
    let leaf := Json.obj [("dataType", .str "color"), ("type", .str "constant")]
    let v := Json.obj [("note", .null), ("operands", .arr [leaf, .arr []]),
      ("operator", .bool true)]
    v.Ordered ∧ Json.read v.compact = .ok v ∧
      restored v = .obj [
        ("operands", .arr [.obj [("type", .str "constant"), ("value", .null)], .arr []]),
        ("operator", .str "true")] ∧
      ¬ v.Canonical ∧ Json.read (ofJson v).encode ≠ .ok v ∧ restored (.arr []) = .arr [] := by
  intro leaf v
  have hleaf : leaf.Ordered := by
    refine ⟨?_, trivial, trivial, trivial⟩
    have hnames : "dataType" < "type" := by decide
    exact List.pairwise_pair.2 hnames
  have hv : v.Ordered := by
    refine ⟨?_, trivial, ⟨hleaf, trivial, trivial⟩, trivial, trivial⟩
    have hbehind : "note" < "operands" ∧ "note" < "operator" := by decide
    have hnames : "operands" < "operator" := by decide
    refine List.pairwise_cons.2 ⟨?_, List.pairwise_pair.2 hnames⟩
    exact List.forall_mem_cons.2 ⟨hbehind.1, List.forall_mem_singleton.2 hbehind.2⟩
  have hread : Json.read v.compact = .ok v := by
    rw [Json.read_compact, Json.ordered_eq_self hv]
    rfl
  obtain ⟨heq, -, htext, hcondition, -⟩ := restored_eq_self_iff v hv
  obtain ⟨-, -, -, -, hrestored⟩ := restored_eq_self_iff leaf hleaf
  obtain ⟨hlist, -, -, -, -⟩ := restored_eq_self_iff (.arr []) trivial
  have hempty : restored (.arr []) = .arr [] := by
    refine hlist.2 fun hlossy => ?_
    cases hlossy
  have hback := hcondition _ _ _ rfl rfl rfl
  rw [List.map_cons, List.map_cons, List.map_nil, hempty,
    hrestored _ "constant" rfl rfl rfl (by decide)] at hback
  have hlossy : ¬ v.Canonical := by
    rw [← heq, hback]
    simp [v]
  exact ⟨hv, hread, hback, hlossy, fun h => hlossy ((htext _ hread).1 h), hempty⟩

end Expr

end EdgeGuard
