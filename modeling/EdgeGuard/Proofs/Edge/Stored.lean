import EdgeGuard.Document.Load
import EdgeGuard.Proofs.Edge.Reader

/-!
# `EdgeGuard.Proofs.Edge.Stored`: the forms in which edges are stored

An edge is stored as an object, among whose fields there may be others (`Form.object`), or as an
array, from whose end the items of fields that have their defaults may be left off (`Form.array`).
Every form of an edge gives the edge back, as a value, as a text, and as an entry of a list.

The two forms fill a draft in different orders and leave different fields open. What they share is
a draft that knows some fields of one edge and nothing else, `Draft.knowing`: a stored field takes
it to a draft of the same kind (`Draft.set_stored`), so an object and an array only differ in the
list of the fields that are known at the end. `Draft.finish_knowing` is about that list alone.
-/

set_option autoImplicit false

namespace EdgeGuard

open Json (ok_bind)

/-- The list of the fields misses none. -/
theorem EdgeField.mem_all (field : EdgeField) : field ∈ all := by
  cases field <;> decide

/-- The name of a field is read as that field. -/
theorem EdgeField.ofName?_name (field : EdgeField) : ofName? field.name = some field := by
  cases field <;> decide

namespace Edge

/-- A text, or null where there is none. -/
def textOrNull : Option String → Json
  | some text => .str text
  | none => .null

/-- What is stored for a field of an edge. -/
def stored (edge : Edge) : EdgeField → Json
  | .id => .str edge.id
  | .source => .str edge.source
  | .target => .str edge.target
  | .label => textOrNull edge.label
  | .isConditional => .bool edge.isConditional
  | .condition => textOrNull edge.condition

/-- The items of an edge as an array. -/
def items (edge : Edge) : List Json :=
  [.str edge.id, .str edge.source, .str edge.target, textOrNull edge.label,
    .bool edge.isConditional, textOrNull edge.condition]

/-- Whether an edge has for a field what is taken for a missing one. The identifiers have no
default. -/
def HasDefault (edge : Edge) : EdgeField → Prop
  | .id | .source | .target => False
  | .label => edge.label = none
  | .isConditional => edge.isConditional = false
  | .condition => edge.condition = none

instance (edge : Edge) (field : EdgeField) : Decidable (edge.HasDefault field) :=
  match field with
  | .id | .source | .target => inferInstanceAs (Decidable False)
  | .label => inferInstanceAs (Decidable (edge.label = none))
  | .isConditional => inferInstanceAs (Decidable (edge.isConditional = false))
  | .condition => inferInstanceAs (Decidable (edge.condition = none))

/-- The values in which an edge is stored. -/
inductive Form (edge : Edge) : Json → Prop
  /-- The fields of an edge and fields of other names, in any order. -/
  | object {own fields : List (String × Json)} (hown : edge.toJson = .obj own)
    (h : (fields.filter fun field => (EdgeField.ofName? field.1).isSome).Perm own) :
    Form edge (.obj fields)
  /-- The items of an edge, up to a place behind which every field has its default. With all six it
  is the whole array. The first three are always kept, since they have no default. -/
  | array (kept : Nat) (h : ∀ field ∈ EdgeField.all.drop kept, edge.HasDefault field) :
    Form edge (.arr (edge.items.take kept))

/-- The items of an array are what is stored for the fields, in their order. -/
theorem items_eq_map (edge : Edge) : edge.items = EdgeField.all.map edge.stored := rfl

/-! ### Drafts of one edge -/

namespace Draft

/-- The draft in which the named fields of an edge are known. -/
def knowing (edge : Edge) (known : List EdgeField) : Draft where
  id := if .id ∈ known then some edge.id else none
  source := if .source ∈ known then some edge.source else none
  target := if .target ∈ known then some edge.target else none
  label := if .label ∈ known then some edge.label else none
  isConditional := if .isConditional ∈ known then some edge.isConditional else none
  condition := if .condition ∈ known then some edge.condition else none

/-- A draft in which no field of an edge is known is blank, whatever the edge. The walk over a form
starts here. -/
theorem knowing_nil (edge : Edge) : knowing edge [] = blank := rfl

/-- Null stands for no text, so what is stored for one that may be missing is read as it was. -/
theorem optionalTextOf_textOrNull (text : Option String) :
    optionalTextOf (textOrNull text) = .ok text := by
  cases text <;> rfl

/-- What is stored for a field makes it known. The draft is of the same kind before and behind, so
it serves as the invariant of the walk over fields and over items. -/
theorem set_stored (edge : Edge) (known : List EdgeField) (field : EdgeField) :
    (knowing edge known).set field (edge.stored field) = .ok (knowing edge (field :: known)) := by
  cases field <;> simp [set, stored, textOf, boolOf, optionalTextOf_textOrNull, knowing]

/-- Where nothing is known the default is taken. -/
theorem getD_known {α : Type} {known : Prop} [Decidable known] {x default : α}
    (h : known ∨ x = default) : (if known then some x else none).getD default = x := by
  by_cases hknown : known
  · rw [if_pos hknown]
    rfl
  · rw [if_neg hknown]
    exact (h.resolve_left hknown).symm

/-- A draft is finished when each field is known or has its default. The identifiers have no
default, so they are among the known fields. -/
theorem finish_knowing {edge : Edge} {known : List EdgeField}
    (h : ∀ field, field ∈ known ∨ edge.HasDefault field) (missing : EdgeField → Json.Mismatch) :
    (knowing edge known).finish missing = .ok edge := by
  -- A field without a default has to be known.
  have hid : EdgeField.id ∈ known := (h .id).resolve_right fun hdefault => hdefault
  have hsource : EdgeField.source ∈ known := (h .source).resolve_right fun hdefault => hdefault
  have htarget : EdgeField.target ∈ known := (h .target).resolve_right fun hdefault => hdefault
  simp only [finish, knowing, if_pos hid, if_pos hsource, if_pos htarget, getD_known (h .label),
    getD_known (h .isConditional), getD_known (h .condition)]

/-- Fields of an object that hold what is stored for an edge make the fields known that they name.
Fields of other names are passed over. The list of the known fields grows at the front, so the last
one that was set comes first. -/
theorem setAll_knowing {edge : Edge} {fields : List (String × Json)}
    (h : ∀ pair ∈ fields, ∀ field, EdgeField.ofName? pair.1 = some field →
      pair.2 = edge.stored field) (known : List EdgeField) :
    (knowing edge known).setAll fields
      = .ok (knowing edge ((EdgeField.named fields).reverse ++ known)) := by
  induction fields generalizing known with
  | nil => rfl
  | cons pair rest ih =>
    obtain ⟨name, value⟩ := pair
    have hrest := ih fun pair hpair => h pair (List.mem_cons_of_mem _ hpair)
    rw [setAll]
    cases hname : EdgeField.ofName? name with
    | none =>
      rw [EdgeField.named_cons_none hname]
      exact hrest known
    | some field =>
      have hvalue : value = edge.stored field := h (name, value) List.mem_cons_self field hname
      simp only
      rw [EdgeField.named_cons_some hname, hvalue, set_stored, ok_bind, hrest]
      simp

/-- The items of an array that hold what is stored for an edge make the fields known that come
first. -/
theorem setItems_knowing (edge : Edge) (taken left known : List EdgeField) :
    (knowing edge known).setItems (taken ++ left) (taken.map edge.stored)
      = .ok (knowing edge (taken.reverse ++ known)) := by
  induction taken generalizing known with
  | nil => cases left <;> rfl
  | cons field taken ih =>
    rw [List.cons_append, List.map_cons, setItems, set_stored, ok_bind, ih]
    simp

end Draft

/-! ### Objects -/

/-- What the fields of an object say about an edge: each field of the edge that is named is named
once, with what is stored for it, and one that is not named has its default. -/
structure DescribedBy (edge : Edge) (fields : List (String × Json)) : Prop where
  once : (EdgeField.named fields).Nodup
  values : ∀ pair ∈ fields, ∀ field, EdgeField.ofName? pair.1 = some field →
    pair.2 = edge.stored field
  complete : ∀ field, field ∈ EdgeField.named fields ∨ edge.HasDefault field

/-- Whether a field is written for an edge. -/
def writes (edge : Edge) : EdgeField → Bool
  | .label => edge.label.isSome
  | .condition => edge.condition.isSome
  | .id | .source | .target | .isConditional => true

/-- An edge is written field by field in the order of an array, without the texts that are
missing. -/
theorem toJson_eq_map (edge : Edge) :
    edge.toJson = .obj ((EdgeField.all.filter edge.writes).map fun field =>
      (field.name, edge.stored field)) := by
  obtain ⟨id, source, target, label, isConditional, condition⟩ := edge
  cases label <;> cases condition <;> rfl

/-- A field is left off only where it has its default. -/
theorem hasDefault_of_not_writes {edge : Edge} {field : EdgeField} (h : ¬edge.writes field = true) :
    edge.HasDefault field := by
  cases field <;> simp_all [writes, HasDefault]

/-- An edge is described by the fields that it is written with. -/
theorem describedBy_own {edge : Edge} {own : List (String × Json)} (h : edge.toJson = .obj own) :
    edge.DescribedBy own := by
  rw [toJson_eq_map] at h
  cases h
  -- Every name that is written is read as its field, so the fields named are those written.
  have hnamed : EdgeField.named ((EdgeField.all.filter edge.writes).map fun field =>
      (field.name, edge.stored field)) = EdgeField.all.filter edge.writes := by
    rw [EdgeField.named, List.filterMap_map]
    simp only [Function.comp_def, EdgeField.ofName?_name, List.filterMap_some]
  refine ⟨?_, ?_, fun field => ?_⟩
  · rw [hnamed]
    -- The list of all fields has none twice, so no part of it has.
    exact List.filter_sublist.nodup (by decide)
  · intro pair hpair field hname
    obtain ⟨other, -, rfl⟩ := List.mem_map.1 hpair
    simp only [EdgeField.ofName?_name, Option.some.injEq] at hname
    rw [hname]
  · rw [hnamed, List.mem_filter]
    by_cases hwrites : edge.writes field = true
    · exact .inl ⟨field.mem_all, hwrites⟩
    · exact .inr (hasDefault_of_not_writes hwrites)

/-- Fields of other names can be left off: the fields of an edge that are named stay the same. -/
theorem named_filter (fields : List (String × Json)) :
    EdgeField.named (fields.filter fun field => (EdgeField.ofName? field.1).isSome)
      = EdgeField.named fields := by
  rw [EdgeField.named, EdgeField.named, List.filterMap_filter]
  congr 1
  funext field
  cases EdgeField.ofName? field.1 <;> rfl

/-- Fields of other names and the order of the fields make no difference. The fields that are named
are the same ones, and each is there as often as before. -/
theorem DescribedBy.of_perm {edge : Edge} {fields own : List (String × Json)}
    (hown : edge.DescribedBy own)
    (h : (fields.filter fun field => (EdgeField.ofName? field.1).isSome).Perm own) :
    edge.DescribedBy fields := by
  have hnamed : (EdgeField.named fields).Perm (EdgeField.named own) := by
    rw [← named_filter fields]
    exact h.filterMap _
  refine ⟨hnamed.nodup_iff.2 hown.once, ?_, fun field => ?_⟩
  · -- A pair that names a field is one of the edge's own.
    intro pair hpair field hname
    refine hown.values pair (h.mem_iff.1 (List.mem_filter.2 ⟨hpair, ?_⟩)) field hname
    rw [hname]
    rfl
  · rw [hnamed.mem_iff]
    exact hown.complete field

/-- An object that describes an edge is that edge. -/
theorem ofJson_obj {edge : Edge} {fields : List (String × Json)} (h : edge.DescribedBy fields) :
    ofJson (.obj fields) = .ok edge := by
  rw [ofJson, ← Draft.knowing_nil edge, Draft.setAll_knowing h.values, ok_bind]
  exact Draft.finish_knowing (by simpa using h.complete) missingField

/-! ### Arrays -/

/-- An array that breaks off where only defaults follow is the edge. The fields behind that place
are not known to the draft, and get the defaults that the edge has. -/
theorem ofJson_arr {edge : Edge} {kept : Nat}
    (h : ∀ field ∈ EdgeField.all.drop kept, edge.HasDefault field) :
    ofJson (.arr (edge.items.take kept)) = .ok edge := by
  have hset := Draft.setItems_knowing edge (EdgeField.all.take kept) (EdgeField.all.drop kept) []
  rw [List.take_append_drop, List.map_take, ← items_eq_map, Draft.knowing_nil] at hset
  have hfinish : (Draft.knowing edge ((EdgeField.all.take kept).reverse ++ [])).finish arrayTooShort
      = .ok edge := by
    refine Draft.finish_knowing (fun field => ?_) arrayTooShort
    -- Each field comes before the place where the array breaks off, or behind it.
    have hall := field.mem_all
    rw [← List.take_append_drop kept EdgeField.all] at hall
    rcases List.mem_append.1 hall with htaken | hleft
    · exact .inl (by simpa using htaken)
    · exact .inr (h field hleft)
  have hlength : (edge.items.take kept).length ≤ EdgeField.all.length :=
    List.length_take_le' kept edge.items
  rw [ofJson, hset, ok_bind, hfinish, ok_bind, if_pos hlength]
  rfl

/-! ### Every form -/

/-- Every form of an edge is that edge. -/
theorem ofJson_form {edge : Edge} {value : Json} (h : edge.Form value) :
    ofJson value = .ok edge := by
  cases h with
  | object hown h => exact ofJson_obj ((describedBy_own hown).of_perm h)
  | array kept h => exact ofJson_arr h

/-- No form of an edge names a field twice, so its text may be read. Arrays name nothing, and an
object has the fields of the edge only once. -/
theorem namesOnce_form {edge : Edge} {value : Json} (h : edge.Form value) : NamesOnce value := by
  cases h with
  | object hown h => exact ((describedBy_own hown).of_perm h).once
  | array kept h => trivial

/-- The text of every form of an edge is read as that edge. -/
theorem reader_reads_form {edge : Edge} {value : Json} (h : edge.Form value) :
    Json.Reader.Reads reader value edge :=
  reader_reads (ofJson_form h) (namesOnce_form h)

/-- An edge is written in one of its forms. -/
theorem form_toJson (edge : Edge) : edge.Form edge.toJson := by
  rw [toJson_eq_map]
  refine .object (toJson_eq_map edge) ?_
  rw [List.filter_eq_self.2 fun pair hpair => ?_]
  obtain ⟨field, -, rfl⟩ := List.mem_map.1 hpair
  rw [EdgeField.ofName?_name]
  rfl

/-! ### Lists of edges -/

section
variable {edges : List Edge} {values : List Json}

/-- A list of forms gives the edges one by one. -/
theorem listOfJson_forms (h : List.Forall₂ Form edges values) :
    listOfJson (.arr values) = .ok edges := by
  show values.mapM ofJson = _
  induction h with
  | nil => rfl
  | cons hform _ ih =>
    rw [List.mapM_cons, ofJson_form hform, ok_bind, ih]
    rfl

/-- The text of a list of forms is a document of the edges. -/
theorem parse_forms (h : List.Forall₂ Form edges values) :
    Document.parse Document.edges .json (Json.arr values).compact = .ok edges := by
  have hreads : List.Forall₂ (Json.Reader.Reads reader) values edges :=
    h.flip.imp fun _ _ hform => reader_reads_form hform
  show (Json.readAll listReader (Json.arr values).compact).mapError _ = _
  rw [(listReader_reads hreads).readAll_compact]
  rfl

end

/-- Edges survive being stored. A list of edges that is written to a text is read from it, and so
is a list in which every edge has any of its forms: an object with fields of other names among its
own, or an array in which a missing text is null and from whose end defaults may be left off. Each
form gives its edge on its own as well, as a value and as a text. -/
theorem forms_restored :
    (∀ edges : List Edge,
      Document.parse Document.edges .json (Json.arr (edges.map toJson)).compact = .ok edges)
    ∧ (∀ (edge : Edge) (value : Json), edge.Form value →
      ofJson value = .ok edge ∧ Json.readAll reader value.compact = .ok edge)
    ∧ ∀ (edges : List Edge) (values : List Json), List.Forall₂ Form edges values →
      listOfJson (.arr values) = .ok edges
        ∧ Document.parse Document.edges .json (Json.arr values).compact = .ok edges := by
  refine ⟨fun edges => parse_forms ?_, fun edge value h => ?_, fun edges values h => ?_⟩
  · rw [List.forall₂_map_right_iff, List.forall₂_same]
    exact fun edge _ => form_toJson edge
  · exact ⟨ofJson_form h, (reader_reads_form h).readAll_compact⟩
  · exact ⟨listOfJson_forms h, parse_forms h⟩

/-- An object with the fields of a drawing, a whole array and the shortest array, as one list. -/
theorem forms_restored_of_drawing :
    Document.parse Document.edges .json (Json.arr [
        .obj [("style", .obj [("stroke", .str "#333")]), ("target", .str "n2"), ("id", .str "e1"),
          ("source", .str "n1"), ("sourceHandle", .null), ("isConditional", .bool true),
          ("conditionExpression", .str "\x7b\"operator\":\"isNull\"\x7d")],
        .arr [.str "e2", .str "n1", .str "n3", .str "else", .bool false, .null],
        .arr [.str "e3", .str "n3", .str "n1"]]).compact
      = .ok [⟨"e1", "n1", "n2", none, true, some "\x7b\"operator\":\"isNull\"\x7d"⟩,
        ⟨"e2", "n1", "n3", some "else", false, none⟩, .between "e3" "n3" "n1"] := by
  refine (forms_restored.2.2 _ _ (.cons (.object rfl ?_) (.cons ?_ (.cons ?_ .nil)))).2
  -- The target comes before the fields that are written first.
  · exact (List.Perm.swap ..).trans ((List.Perm.swap ..).cons _)
  · exact .array 6 (by decide)
  · exact .array 3 (by decide)

end Edge

end EdgeGuard
