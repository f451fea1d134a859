import EdgeGuard.Eval.Compare
import EdgeGuard.Proofs.Json.Order
import Mathlib.Data.List.Nodup
import Mathlib.Data.List.Perm.Subperm

/-!
# `EdgeGuard.Proofs.Json.Equal`: values that conditions take to be equal

Conditions compare numbers as doubles, so `1` and `1.0` are equal at any depth of two values.
`Json.normal` puts one number in the place of all that are equal to it, and changes nothing else.
An equality of conditions is then an equality of normal forms, and what commutes with the normal
form does not see the difference between equal values.

* `normal_eq_of_equals`: equal values have one normal form.
* `equals_normal`: a comparison does not see the difference between a value and its normal form.
* `field?_normal`: neither does a look into a field of an object.

Objects are compared by the number of their fields and by a lookup of every field of the first in
the second. No name comes up twice, so the names of both are the same
(`Bindings.names_subset_of_length`).
-/

set_option autoImplicit false

namespace EdgeGuard

/-! ### Bindings and their names -/

namespace Bindings

variable {α β : Type}

/-- No name comes up twice in bindings in the order of their names. -/
theorem nodup_names {bindings : Bindings α} (h : Sorted bindings) : bindings.names.Nodup := by
  refine List.pairwise_map.2 (h.imp fun {a b} hlt => ?_)
  -- Two names that were the same would not be in a strict order.
  intro heq
  exact String.lt_irrefl b.1 (heq ▸ hlt)

/-- A binding is found when no name comes up twice. Without that condition a lookup would find the
first binding of the name, which may be another one. -/
theorem get?_of_mem {bindings : Bindings α} {name : String} {value : α}
    (h : bindings.names.Nodup) (hmem : (name, value) ∈ bindings) :
    bindings.get? name = some value := by
  induction bindings with
  | nil => exact absurd hmem List.not_mem_nil
  | cons pair rest ih =>
    obtain ⟨key, bound⟩ := pair
    obtain ⟨hkey, hrest⟩ := List.nodup_cons.1 h
    rw [get?_cons]
    rcases List.mem_cons.1 hmem with heq | hbehind
    · cases heq
      rw [if_pos rfl]
    · -- The name stands behind, so it is not the first one.
      have hname : name ∈ names rest := List.mem_map.2 ⟨(name, value), hbehind, rfl⟩
      have hne : name ≠ key := fun heq => hkey (heq ▸ hname)
      rw [if_neg hne, ih hrest hbehind]

/-- The bound names are those that a lookup finds. -/
theorem mem_names_iff (bindings : Bindings α) (name : String) :
    name ∈ bindings.names ↔ ∃ value, bindings.get? name = some value := by
  induction bindings with
  | nil => simp [names]
  | cons pair rest ih =>
    obtain ⟨key, bound⟩ := pair
    have hnames : names ((key, bound) :: rest) = key :: names rest := rfl
    rw [hnames, List.mem_cons, ih, get?_cons]
    by_cases hname : name = key
    · simp [hname]
    · simp [hname]

/-- A lookup finds what was made of the value. -/
theorem get?_map (f : α → β) (bindings : Bindings α) (name : String) :
    get? (bindings.map fun pair => (pair.1, f pair.2)) name = (bindings.get? name).map f := by
  induction bindings with
  | nil => rfl
  | cons pair rest ih =>
    obtain ⟨key, bound⟩ := pair
    rw [List.map_cons, get?_cons, get?_cons, ih]
    split <;> rfl

/-- Bindings in the order of their names are known from what lookups find. The order is the same for
all bindings, so the same bindings stand in the same places. -/
theorem eq_of_get?_eq {a b : Bindings α} (ha : Sorted a) (hb : Sorted b)
    (h : ∀ name, a.get? name = b.get? name) : a = b := by
  have hmem : ∀ pair, pair ∈ a ↔ pair ∈ b := by
    rintro ⟨name, value⟩
    constructor
    · intro hpair
      exact mem_of_get? ((h name).symm.trans (get?_of_mem (nodup_names ha) hpair))
    · intro hpair
      exact mem_of_get? ((h name).trans (get?_of_mem (nodup_names hb) hpair))
  -- The same bindings in an order that both keep: a sorted list is determined by its members.
  have hperm : a.Perm b :=
    (List.perm_ext_iff_of_nodup (List.Nodup.of_map Prod.fst (nodup_names ha))
      (List.Nodup.of_map Prod.fst (nodup_names hb))).2 hmem
  refine List.Perm.eq_of_pairwise (fun x y _ _ hlt hgt => ?_) ha hb hperm
  exact absurd (String.lt_trans hlt hgt) (String.lt_irrefl x.1)

/-- Of two lists of names of one length, one with each name once, neither has a name of its own when
the other has all names of the first. An object is compared with another by its length and by the
lookup of each of its names. This is why no name of the other is left over. -/
theorem names_subset_of_length {a : Bindings α} {b : Bindings β} (ha : a.names.Nodup)
    (hsubset : a.names ⊆ b.names) (hlength : a.length = b.length) : b.names ⊆ a.names := by
  have hnames : b.names.length = a.names.length := by
    rw [names, names, List.length_map, List.length_map, hlength]
  exact ((List.subperm_of_subset ha hsubset).perm_of_length_le (Nat.le_of_eq hnames)).symm.subset

end Bindings

/-! ### Numbers -/

/-- Rounding the value of a double gives a double of this value, with the sign of zero lost. A
double is a whole number of its smallest units, so nothing is rounded away. -/
theorem Binary64.scaled_ofUnits (x : Binary64) :
    ((ofUnits (x.scaled < 0) x.scaled.natAbs 1).getD (.zero false)).scaled = x.scaled := by
  have hunits : x.scaled.natAbs = x.units := by
    unfold scaled
    split <;> omega
  -- A zero comes back with the positive sign, whichever it had. Both have the value zero.
  by_cases hzero : x.units = 0
  · have hscaled : x.scaled = 0 := by omega
    rw [hscaled]
    rfl
  · have hnegative : decide (x.scaled < 0) = x.negative := by
      unfold scaled
      cases x.negative
      · simp
      · simp only [if_true, decide_eq_true_eq]
        omega
    have hround := ofUnits_units x 1 Nat.one_pos
    rw [Nat.mul_one] at hround
    rw [hunits, hnegative, hround]
    rfl

namespace Number

/-- The number that stands for all numbers of one double. It is made from the value as a double
alone, so the kind of the number and the sign of zero are gone. -/
def normal (n : Number) : Number :=
  .float ((Binary64.ofUnits (n.scaled < 0) n.scaled.natAbs 1).getD (.zero false))

/-- The number that stands for a number has its double, so a comparison of the two is one of
equals. -/
@[simp] theorem scaled_normal (n : Number) : n.normal.scaled = n.scaled :=
  Binary64.scaled_ofUnits n.toBinary64

/-- One number stands for all that conditions take as equal: it depends on the double alone. -/
theorem normal_eq_of_scaled_eq {n m : Number} (h : n.scaled = m.scaled) : n.normal = m.normal := by
  rw [normal, normal, h]

end Number

namespace Json

/-! ### Normal forms -/

mutual

/-- The value with one number in the place of all that conditions take to be equal to it. -/
def normal : Json → Json
  | .num value => .num value.normal
  | .arr items => .arr (normalItems items)
  | .obj fields => .obj (normalFields fields)
  | value => value

def normalItems : List Json → List Json
  | [] => []
  | value :: rest => normal value :: normalItems rest

def normalFields : List (String × Json) → List (String × Json)
  | [] => []
  | (name, value) :: rest => (name, normal value) :: normalFields rest

end

/-- The normal forms of a list of items are taken one by one. -/
theorem normalItems_eq_map (items : List Json) : normalItems items = items.map normal := by
  induction items with
  | nil => rfl
  | cons value rest ih => rw [normalItems, ih, List.map_cons]

/-- The normal forms of fields keep the names and their order. -/
theorem normalFields_eq_map (fields : List (String × Json)) :
    normalFields fields = fields.map fun field => (field.1, field.2.normal) := by
  induction fields with
  | nil => rfl
  | cons field rest ih =>
    obtain ⟨name, value⟩ := field
    rw [normalFields, ih, List.map_cons]

/-- A lookup in the normal form of an object finds the normal form of what was there. -/
theorem get?_normalFields (fields : Bindings Json) (name : String) :
    Bindings.get? (normalFields fields) name = (fields.get? name).map normal := by
  rw [normalFields_eq_map, Bindings.get?_map]

/-! ### Equality -/

/-- Fields are equal to others when every one of them is found there with an equal value. The others
may have more, which is why objects are also compared by their length. -/
theorem equalFields_iff (fields others : List (String × Json)) :
    equalFields fields others = true ↔
      ∀ field ∈ fields, ∃ value, Bindings.get? others field.1 = some value ∧
        field.2.equals value = true := by
  induction fields with
  | nil => simp [equalFields]
  | cons field rest ih =>
    obtain ⟨name, value⟩ := field
    rw [equalFields, Bool.and_eq_true, ih, List.forall_mem_cons]
    cases Bindings.get? others name with
    | none => simp
    | some found => simp

/-- A comparison of items sees as much of their normal forms. The hypothesis is what the induction
over the value gives for each item. -/
theorem equalItems_normal {items : List Json}
    (h : ∀ item ∈ items, ∀ other : Json, item.normal.equals other.normal = item.equals other)
    (others : List Json) :
    equalItems (items.map normal) (others.map normal) = equalItems items others := by
  induction items generalizing others with
  | nil => cases others <;> rfl
  | cons item rest ih =>
    cases others with
    | nil => rfl
    | cons other more =>
      rw [List.map_cons, List.map_cons, equalItems, equalItems, h item List.mem_cons_self,
        ih fun item hmem => h item (List.mem_cons_of_mem _ hmem)]

/-- A comparison of fields sees as much of their normal forms. The names are the same in both, so
the lookups find the same fields. -/
theorem equalFields_normal {fields : List (String × Json)}
    (h : ∀ field ∈ fields, ∀ other : Json, field.2.normal.equals other.normal = field.2.equals other)
    (others : List (String × Json)) :
    equalFields (normalFields fields) (normalFields others) = equalFields fields others := by
  induction fields with
  | nil => rfl
  | cons field rest ih =>
    obtain ⟨name, value⟩ := field
    rw [normalFields, equalFields, equalFields, get?_normalFields,
      ih fun field hmem => h field (List.mem_cons_of_mem _ hmem)]
    cases Bindings.get? others name with
    | none => rfl
    | some found =>
      -- A lookup found the same field, in its normal form, so the values are compared as they were.
      have hvalue : value.normal.equals found.normal = value.equals found :=
        h (name, value) List.mem_cons_self found
      show (value.normal.equals found.normal && _) = (value.equals found && _)
      rw [hvalue]

/-- A comparison sees as much of the normal forms of two values as of the values. So a
comparison may be made on either, whatever the two values are and however often a name comes up
in an object. -/
theorem equals_normal (a b : Json) : a.normal.equals b.normal = a.equals b := by
  induction a generalizing b with
  | null => cases b <;> rfl
  | bool value => cases b <;> rfl
  | num value => cases b <;> simp [normal, equals]
  | str value => cases b <;> rfl
  -- Items and fields are compared as the lemmas above say, with the induction hypothesis for each.
  | arr items ih =>
    cases b with
    | arr others =>
      simp only [normal, equals, normalItems_eq_map]
      exact equalItems_normal ih others
    | _ => rfl
  | obj fields ih =>
    cases b with
    | obj others =>
      have hlength : ∀ list, (normalFields list).length = list.length := by
        intro list
        rw [normalFields_eq_map, List.length_map]
      simp only [normal, equals, equalFields_normal ih, hlength]
    | _ => rfl

/-- Equal items have one normal form. Lists of different lengths are never equal, so the items are
compared in pairs to the end. -/
theorem map_normal_of_equalItems {items others : List Json}
    (h : ∀ item ∈ items, ∀ other : Json, other ∈ others → item.equals other = true →
      item.normal = other.normal)
    (hequal : equalItems items others = true) : items.map normal = others.map normal := by
  induction items generalizing others with
  | nil =>
    cases others with
    | nil => rfl
    | cons other more => cases hequal
  | cons item rest ih =>
    cases others with
    | nil => cases hequal
    | cons other more =>
      rw [equalItems, Bool.and_eq_true] at hequal
      obtain ⟨hfirst, hrest⟩ := hequal
      have htail := ih (fun item hmem value hvalue =>
        h item (List.mem_cons_of_mem _ hmem) value (List.mem_cons_of_mem _ hvalue)) hrest
      rw [List.map_cons, List.map_cons, htail,
        h item List.mem_cons_self other List.mem_cons_self hfirst]

/-- Equal objects have fields of the same names, and equal values in them. The comparison looks up
the names of the first object only, and the lengths do the rest. -/
theorem get?_of_equals {fields others : Bindings Json} (hnames : fields.names.Nodup)
    (h : (Json.obj fields).equals (.obj others) = true) (name : String) :
    (fields.get? name = none ∧ others.get? name = none) ∨
      ∃ value other, fields.get? name = some value ∧ others.get? name = some other ∧
        value.equals other = true := by
  rw [equals, Bool.and_eq_true, beq_iff_eq, equalFields_iff] at h
  obtain ⟨hlength, hfields⟩ := h
  cases hget : fields.get? name with
  | some value =>
    obtain ⟨other, hother, hequal⟩ := hfields (name, value) (Bindings.mem_of_get? hget)
    exact .inr ⟨value, other, rfl, hother, hequal⟩
  | none =>
    left
    refine ⟨rfl, ?_⟩
    -- Every name of the first is one of the second, by the comparison of the fields.
    have hsubset : fields.names ⊆ others.names := by
      intro key hkey
      obtain ⟨value, hvalue⟩ := (Bindings.mem_names_iff fields key).1 hkey
      obtain ⟨other, hother, -⟩ := hfields (key, value) (Bindings.mem_of_get? hvalue)
      exact (Bindings.mem_names_iff others key).2 ⟨other, hother⟩
    cases hother : others.get? name with
    | none => rfl
    | some other =>
      -- A name of the second object alone would leave one name too few for the first.
      have hmem := Bindings.names_subset_of_length hnames hsubset hlength
        ((Bindings.mem_names_iff others name).2 ⟨other, hother⟩)
      obtain ⟨value, hvalue⟩ := (Bindings.mem_names_iff fields name).1 hmem
      rw [hget] at hvalue
      cases hvalue

/-- Taking normal forms does not move a field. -/
theorem sorted_normalFields {fields : Bindings Json} (h : Bindings.Sorted fields) :
    Bindings.Sorted (normalFields fields) := by
  rw [normalFields_eq_map]
  exact List.pairwise_map.2 h

/-- Equal objects have fields of one normal form. The order of the names is needed here: equal
objects with their fields in another order would have normal forms in another order too. -/
theorem normalFields_eq_of_equals {fields others : Bindings Json} (hfields : fields.Sorted)
    (hothers : others.Sorted)
    (h : ∀ name value other, fields.get? name = some value → others.get? name = some other →
      value.equals other = true → value.normal = other.normal)
    (hequal : (Json.obj fields).equals (.obj others) = true) :
    normalFields fields = normalFields others := by
  -- Both lists are in order, so it is enough that they are the same to every lookup.
  refine Bindings.eq_of_get?_eq (sorted_normalFields hfields) (sorted_normalFields hothers) ?_
  intro name
  rw [get?_normalFields, get?_normalFields]
  rcases get?_of_equals (Bindings.nodup_names hfields) hequal name with
    ⟨hnone, hotherNone⟩ | ⟨value, other, hvalue, hother, hsame⟩
  · rw [hnone, hotherNone]
  · rw [hvalue, hother, Option.map_some, Option.map_some, h name value other hvalue hother hsame]

/-- Values that a condition takes to be equal have one normal form. So what a condition takes to be
equal can be replaced in whatever depends on the normal form alone. -/
theorem normal_eq_of_equals {a b : Json} (ha : a.Ordered) (hb : b.Ordered)
    (h : a.equals b = true) : a.normal = b.normal := by
  -- The induction is on the first value. Values of two kinds are never equal, which leaves one case
  -- of the second for each.
  induction a generalizing b with
  | null =>
    cases b with
    | null => rfl
    | _ => cases h
  | bool value =>
    cases b with
    | bool other => rw [of_decide_eq_true h]
    | _ => cases h
  | num value =>
    cases b with
    | num other => exact congrArg Json.num (Number.normal_eq_of_scaled_eq (of_decide_eq_true h))
    | _ => cases h
  | str value =>
    cases b with
    | str other => rw [of_decide_eq_true h]
    | _ => cases h
  | arr items ih =>
    cases b with
    | arr others =>
      have hitems := (orderedItems_iff items).1 ha
      have hothers := (orderedItems_iff others).1 hb
      rw [normal, normal, normalItems_eq_map, normalItems_eq_map]
      refine congrArg Json.arr (map_normal_of_equalItems ?_ h)
      intro item hmem other hother hequal
      exact ih item hmem (hitems item hmem) (hothers other hother) hequal
    | _ => cases h
  | obj fields ih =>
    cases b with
    | obj others =>
      obtain ⟨hsorted, hfields⟩ := ha
      obtain ⟨hsortedOthers, hothers⟩ := hb
      rw [orderedFields_iff] at hfields hothers
      rw [normal, normal]
      refine congrArg Json.obj (normalFields_eq_of_equals hsorted hsortedOthers ?_ h)
      intro name value other hvalue hother hequal
      have hmem := Bindings.mem_of_get? hvalue
      have hmemOther := Bindings.mem_of_get? hother
      exact ih _ hmem (hfields _ hmem) (hothers _ hmemOther) hequal
    | _ => cases h

/-! ### Parts of a value -/

/-- A look into a field does not see whether the normal form is taken before or behind it. It is how
paths into a value are carried over to the normal form. -/
theorem field?_normal (value : Json) (name : String) :
    value.normal.field? name = (value.field? name).map normal := by
  cases value with
  | obj fields => exact get?_normalFields fields name
  | _ => rfl

end Json

end EdgeGuard
