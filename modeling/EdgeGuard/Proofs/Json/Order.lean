import EdgeGuard.Json.Basic

/-!
# `EdgeGuard.Proofs.Json.Order`: values with their fields in order

`Json.ordered` sorts the fields of every object of a value. The functions that walk over a value
come in threes, one each for a value, a list of items and a list of fields. The lemmas here put
the last two in terms of the members of the list, so that `Json.induction` is the only induction
that a proof about values needs.

* `ordered_of_ordered` and `ordered_eq_self`: what comes out is in order, and what is in order
  stays as it is. So the values in order are exactly those that `ordered` gives.
-/

set_option autoImplicit false

namespace EdgeGuard

namespace Bindings

variable {α : Type}

/-- A name behind all others is bound at the end. -/
theorem insert_of_lt {bindings : Bindings α} {name : String} (value : α)
    (h : ∀ pair ∈ bindings, pair.1 < name) :
    bindings.insert name value = bindings ++ [(name, value)] := by
  induction bindings with
  | nil => rfl
  | cons pair rest ih =>
    obtain ⟨key, bound⟩ := pair
    have hkey : key < name := h (key, bound) List.mem_cons_self
    have hne : name ≠ key := fun e => String.lt_irrefl key (e ▸ hkey)
    have hnot : ¬ name < key := fun hlt => String.lt_irrefl key (String.lt_trans hkey hlt)
    rw [insert, if_neg hne, if_neg hnot, ih fun pair hp => h pair (List.mem_cons_of_mem _ hp)]
    rfl

/-- Bindings that are made in the order of their names stand in that order. The list of the reader
is sorted by insertion one by one, and for a list in order every insertion is at the end. -/
theorem foldl_insert_eq_append (pairs : List (String × α)) {bindings : Bindings α}
    (h : Sorted (bindings ++ pairs)) :
    pairs.foldl (fun bindings pair => bindings.insert pair.1 pair.2) bindings
      = bindings ++ pairs := by
  -- The induction is on what is still to be bound. Each name is behind all that are bound already.
  induction pairs generalizing bindings with
  | nil => simp
  | cons pair rest ih =>
    have hlt : ∀ other ∈ bindings, other.1 < pair.1 := fun other hother =>
      (List.pairwise_append.1 h).2.2 other hother pair List.mem_cons_self
    rw [List.foldl_cons, insert_of_lt pair.2 hlt, ih]
    · simp
    · simpa using h

/-- A list in the order of its names has the bindings that it shows. -/
theorem ofList_eq_self {pairs : List (String × α)} (h : Sorted pairs) : ofList pairs = pairs :=
  foldl_insert_eq_append pairs h

/-- A binding comes from those that were made or from those that were there before. -/
theorem mem_foldl_insert {pairs : List (String × α)} {bindings : Bindings α} {pair : String × α}
    (h : pair ∈ pairs.foldl (fun bindings pair => bindings.insert pair.1 pair.2) bindings) :
    pair ∈ pairs ∨ pair ∈ bindings := by
  induction pairs generalizing bindings with
  | nil => exact .inr h
  | cons head rest ih =>
    rcases ih h with hrest | hinsert
    · exact .inl (List.mem_cons_of_mem _ hrest)
    · rcases mem_insert hinsert with rfl | hold
      · exact .inl List.mem_cons_self
      · exact .inr hold

/-- No binding is there that was not made. -/
theorem mem_of_mem_ofList {pairs : List (String × α)} {pair : String × α}
    (h : pair ∈ ofList pairs) : pair ∈ pairs := by
  rcases mem_foldl_insert h with h | h
  · exact h
  · exact absurd h List.not_mem_nil

/-- What a lookup finds is bound. -/
theorem mem_of_get? {bindings : Bindings α} {name : String} {value : α}
    (h : bindings.get? name = some value) : (name, value) ∈ bindings := by
  induction bindings with
  | nil => exact absurd h (by simp)
  | cons pair rest ih =>
    obtain ⟨key, bound⟩ := pair
    rw [get?_cons] at h
    split at h
    · next hkey =>
      rw [hkey, Option.some.inj h]
      exact List.mem_cons_self
    · exact List.mem_cons_of_mem _ (ih h)

/-- Bindings of different names are found whatever their order. A name that comes up twice would be
found with its last value here and with its first in the list. -/
theorem get?_foldl_insert {pairs : List (String × α)} (h : (names pairs).Nodup)
    (bindings : Bindings α) (name : String) :
    get? (pairs.foldl (fun bindings pair => bindings.insert pair.1 pair.2) bindings) name
      = (get? pairs name).or (get? bindings name) := by
  induction pairs generalizing bindings with
  | nil => simp
  | cons pair rest ih =>
    obtain ⟨key, value⟩ := pair
    obtain ⟨hkey, hrest⟩ := List.nodup_cons.1 h
    rw [List.foldl_cons, ih hrest, get?_insert, get?_cons]
    by_cases hname : name = key
    · -- The name does not come up again behind its binding.
      have hnone : get? rest name = none := by
        cases hget : get? rest name with
        | none => rfl
        | some found =>
          have hmem := List.mem_map_of_mem (f := Prod.fst) (mem_of_get? hget)
          exact absurd (hname ▸ hmem) hkey
      rw [if_pos hname, if_pos hname, hnone]
      rfl
    · rw [if_neg hname, if_neg hname]

/-- Sorting bindings of different names does not change what a lookup finds. -/
theorem get?_ofList {pairs : List (String × α)} (h : (names pairs).Nodup) (name : String) :
    get? (ofList pairs) name = get? pairs name := by
  rw [ofList, get?_foldl_insert h, get?_nil, Option.or_none]

end Bindings

namespace Json

/-- What holds of the scalars, of an array when it holds of its items and of an object when it holds
of the values of its fields holds of every value. The list recursions of the type are folded into
the two hypotheses on members, and a proof about values never mentions them. -/
@[elab_as_elim, induction_eliminator]
theorem induction {motive : Json → Prop} (null : motive .null)
    (bool : ∀ value, motive (.bool value)) (num : ∀ value, motive (.num value))
    (str : ∀ value, motive (.str value))
    (arr : ∀ items, (∀ item ∈ items, motive item) → motive (.arr items))
    (obj : ∀ fields : List (String × Json), (∀ field ∈ fields, motive field.2) →
      motive (.obj fields))
    (value : Json) : motive value :=
  @Json.rec motive (fun items => ∀ item ∈ items, motive item)
    (fun fields => ∀ field ∈ fields, motive field.2) (fun field => motive field.2)
    null bool num str arr obj
    (fun _ h => absurd h List.not_mem_nil)
    (fun _ _ hhead htail => List.forall_mem_cons.2 ⟨hhead, htail⟩)
    (fun _ h => absurd h List.not_mem_nil)
    (fun _ _ hhead htail => List.forall_mem_cons.2 ⟨hhead, htail⟩)
    (fun _ _ h => h) value

/-! ### Items and fields as lists -/

/-- The items of a list are put in order one by one. -/
theorem orderedItems_eq_map (items : List Json) : orderedItems items = items.map ordered := by
  induction items with
  | nil => rfl
  | cons value rest ih => rw [orderedItems, ih, List.map_cons]

/-- The values of the fields are put in order one by one. The fields themselves are sorted by
`ordered`, which comes after this. -/
theorem orderedFields_eq_map (fields : List (String × Json)) :
    orderedFields fields = fields.map fun field => (field.1, field.2.ordered) := by
  induction fields with
  | nil => rfl
  | cons field rest ih =>
    obtain ⟨name, value⟩ := field
    rw [orderedFields, ih, List.map_cons]

/-- Items are in order when each of them is. -/
theorem orderedItems_iff (items : List Json) :
    OrderedItems items ↔ ∀ item ∈ items, item.Ordered := by
  induction items with
  | nil => simp [OrderedItems]
  | cons value rest ih => simp [OrderedItems, ih]

/-- Fields have their values in order when each of them has. Nothing is said of the order of their
names. -/
theorem orderedFields_iff (fields : List (String × Json)) :
    OrderedFields fields ↔ ∀ field ∈ fields, field.2.Ordered := by
  induction fields with
  | nil => simp [OrderedFields]
  | cons field rest ih =>
    obtain ⟨name, value⟩ := field
    simp only [OrderedFields, ih, List.forall_mem_cons]

/-- A bound on the nesting of a list of items is one on each item. -/
theorem depthItems_le_iff (items : List Json) (bound : Nat) :
    depthItems items ≤ bound ↔ ∀ item ∈ items, item.depth ≤ bound := by
  induction items with
  | nil => simp [depthItems]
  | cons value rest ih => rw [depthItems, Nat.max_le, ih, List.forall_mem_cons]

/-- A bound on the nesting of a list of fields is one on each value. -/
theorem depthFields_le_iff (fields : List (String × Json)) (bound : Nat) :
    depthFields fields ≤ bound ↔ ∀ field ∈ fields, field.2.depth ≤ bound := by
  induction fields with
  | nil => simp [depthFields]
  | cons field rest ih =>
    obtain ⟨name, value⟩ := field
    simp only [depthFields, Nat.max_le, ih, List.forall_mem_cons]

/-- No item nests deeper than the deepest. -/
theorem depth_le_depthItems {items : List Json} {item : Json} (h : item ∈ items) :
    item.depth ≤ depthItems items :=
  (depthItems_le_iff items _).1 (Nat.le_refl _) item h

/-- No field nests deeper than the deepest. -/
theorem depth_le_depthFields {fields : List (String × Json)} {field : String × Json}
    (h : field ∈ fields) : field.2.depth ≤ depthFields fields :=
  (depthFields_le_iff fields _).1 (Nat.le_refl _) field h

/-! ### What sorting gives -/

/-- After sorting, the fields of every object are in order. The values in the fields are put in
order before the fields are sorted, and sorting makes no new values. -/
theorem ordered_of_ordered (value : Json) : value.ordered.Ordered := by
  induction value with
  | null => trivial
  | bool => trivial
  | num => trivial
  | str => trivial
  | arr items ih =>
    rw [ordered, orderedItems_eq_map]
    refine (orderedItems_iff _).2 fun item hitem => ?_
    obtain ⟨raw, hraw, rfl⟩ := List.mem_map.1 hitem
    exact ih raw hraw
  | obj fields ih =>
    rw [ordered, orderedFields_eq_map]
    -- The fields are sorted last, so what is bound in the end is one of the fields that were put in
    -- order.
    refine ⟨Bindings.sorted_ofList _, (orderedFields_iff _).2 fun field hfield => ?_⟩
    obtain ⟨raw, hraw, rfl⟩ := List.mem_map.1 (Bindings.mem_of_mem_ofList hfield)
    exact ih raw hraw

/-- A value in order stays as it is. So reading a written value that is in order gives exactly this
value. -/
theorem ordered_eq_self {value : Json} (h : value.Ordered) : value.ordered = value := by
  induction value with
  | null => rfl
  | bool => rfl
  | num => rfl
  | str => rfl
  | arr items ih =>
    have hitems := (orderedItems_iff items).1 h
    rw [ordered, orderedItems_eq_map]
    rw [List.map_congr_left fun item hitem => ih item hitem (hitems item hitem), List.map_id']
  | obj fields ih =>
    obtain ⟨hsorted, hfields⟩ := h
    have hvalues := (orderedFields_iff fields).1 hfields
    have hmap : (fields.map fun field => (field.1, field.2.ordered)) = fields := by
      rw [List.map_congr_left (g := id) fun field hfield => ?_, List.map_id]
      show (field.1, field.2.ordered) = field
      rw [ih field hfield (hvalues field hfield)]
    rw [ordered, orderedFields_eq_map, hmap, Bindings.ofList_eq_self hsorted]

end Json

end EdgeGuard
