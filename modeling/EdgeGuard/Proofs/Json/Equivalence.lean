import EdgeGuard.Proofs.Json.Equal
import Mathlib.Data.List.Forall2

/-!
# `EdgeGuard.Proofs.Json.Equivalence`: the equality of conditions is an equivalence

`Json.equals` compares two objects from one side: both have the same number of fields, and every
field of the first has an equal one in the second. Nothing in this form is symmetric. When no name
comes up twice in an object (`Json.UniqueNames`), it says the same as a statement without sides
(`equals_obj_iff`): each lookup finds equal values in both objects, or nothing in both. The laws
of an equivalence then hold of objects because they hold of the values that are found.

* `equals_self`, `equals_symm` and `equals_trans`: the three laws, by induction on the first value.
* `equals_equivalence`: the laws in one statement.
* `uniqueNames_of_ordered`: the values of a running program have unique names.
-/

set_option autoImplicit false

namespace EdgeGuard

/-- Bindings of unique names that have the same names are equally many. -/
theorem Bindings.length_eq_of_names {α β : Type} {a : Bindings α} {b : Bindings β}
    (ha : a.names.Nodup) (hb : b.names.Nodup) (h : ∀ name, name ∈ a.names ↔ name ∈ b.names) :
    a.length = b.length := by
  have hperm : a.names.Perm b.names := (List.perm_ext_iff_of_nodup ha hb).2 h
  have hlength := hperm.length_eq
  rwa [names, names, List.length_map, List.length_map] at hlength

namespace Json

/-- No object in the value has two fields of one name. -/
inductive UniqueNames : Json → Prop
  | null : UniqueNames .null
  | bool (value : Bool) : UniqueNames (.bool value)
  | num (value : Number) : UniqueNames (.num value)
  | str (text : String) : UniqueNames (.str text)
  | arr {items : List Json} (each : ∀ item ∈ items, UniqueNames item) : UniqueNames (.arr items)
  | obj {fields : List (String × Json)} (names : (Bindings.names fields).Nodup)
      (each : ∀ field ∈ fields, UniqueNames field.2) : UniqueNames (.obj fields)

/-- A value with the fields of its objects in order has unique names. -/
theorem uniqueNames_of_ordered {value : Json} (h : value.Ordered) : value.UniqueNames := by
  induction value with
  | null => exact .null
  | bool value => exact .bool value
  | num value => exact .num value
  | str text => exact .str text
  | arr items ih =>
    have hitems := (orderedItems_iff items).1 h
    exact .arr fun item hmem => ih item hmem (hitems item hmem)
  | obj fields ih =>
    obtain ⟨hsorted, hordered⟩ := h
    have hfields := (orderedFields_iff fields).1 hordered
    -- A strict order of the names leaves no name twice.
    exact .obj (Bindings.nodup_names hsorted) fun field hmem => ih field hmem (hfields field hmem)

/-! ### Arrays and objects without sides -/

/-- Both lists are empty at a place, or they have items in a relation there. -/
theorem forall_rel_getElem?_cons_iff {α β : Type} {r : α → β → Prop} (a : α) (as : List α) (b : β)
    (bs : List β) :
    (∀ i : Nat, Option.Rel r (a :: as)[i]? (b :: bs)[i]?)
      ↔ r a b ∧ ∀ i : Nat, Option.Rel r as[i]? bs[i]? := by
  constructor
  · intro h
    refine ⟨?_, fun i => h (i + 1)⟩
    cases h 0 with
    | some hab => exact hab
  · rintro ⟨hab, hrest⟩ i
    cases i with
    | zero => exact .some hab
    | succ i => exact hrest i

/-- Arrays are equal when each index leads to equal items in both, or to none in both. Places
instead of the recursion make symmetry and transitivity a matter of each place. -/
theorem equals_arr_iff (items others : List Json) :
    (Json.arr items).equals (.arr others) = true
      ↔ ∀ i : Nat, Option.Rel (fun a b => a.equals b = true) items[i]? others[i]? := by
  rw [equals]
  -- Where one list ends before the other, the first place of the longer one has an item in one list
  -- only.
  induction items generalizing others with
  | nil =>
    cases others with
    | nil => simp [equalItems]
    | cons other more =>
      refine iff_of_false Bool.false_ne_true fun h => ?_
      cases h 0
  | cons item rest ih =>
    cases others with
    | nil =>
      refine iff_of_false Bool.false_ne_true fun h => ?_
      cases h 0
    | cons other more =>
      rw [equalItems, Bool.and_eq_true, ih, forall_rel_getElem?_cons_iff]

/-- Objects are equal when each name leads to equal values in both, or to none in both. This is
where the count of the fields turns into a statement that does not depend on the side, and where
names that come up once are needed. -/
theorem equals_obj_iff {fields others : Bindings Json} (hnames : fields.names.Nodup)
    (hothers : others.names.Nodup) :
    (Json.obj fields).equals (.obj others) = true
      ↔ ∀ name, Option.Rel (fun a b => a.equals b = true) (fields.get? name) (others.get? name) := by
  constructor
  · intro h name
    rcases get?_of_equals hnames h name with
      ⟨hnone, hnone'⟩ | ⟨value, other, hvalue, hother, hequal⟩
    · rw [hnone, hnone']
      exact .none
    · rw [hvalue, hother]
      exact .some hequal
  · intro h
    have hmem : ∀ name, name ∈ fields.names ↔ name ∈ others.names := by
      intro name
      have hrel := h name
      rw [Bindings.mem_names_iff, Bindings.mem_names_iff]
      generalize fields.get? name = value at hrel ⊢
      generalize others.get? name = other at hrel ⊢
      cases hrel <;> simp
    -- The names are the same, and each is there once in both objects.
    have hlength := Bindings.length_eq_of_names hnames hothers hmem
    rw [equals, Bool.and_eq_true, beq_iff_eq, equalFields_iff]
    refine ⟨hlength, fun field hfield => ?_⟩
    have hrel := h field.1
    rw [Bindings.get?_of_mem hnames hfield] at hrel
    generalize others.get? field.1 = found at hrel ⊢
    cases hrel with
    | some hequal => exact ⟨_, rfl, hequal⟩

/-! ### The three laws -/

/-- Every value is equal to itself. With a name twice in an object, the second field of the name
would be compared with the first. -/
theorem equals_self {value : Json} (h : value.UniqueNames) : value.equals value = true := by
  -- The induction is on the uniqueness of the names, which holds of every part as well.
  induction h with
  | null => rfl
  | bool value => exact beq_self_eq_true value
  | num value => exact beq_self_eq_true value.scaled
  | str text => exact beq_self_eq_true text
  | @arr items _ ih =>
    refine (equals_arr_iff items items).2 fun i => ?_
    cases hget : items[i]? with
    | none => exact .none
    | some item => exact .some (ih item (List.mem_of_getElem? hget))
  | @obj fields hnames _ ih =>
    refine (equals_obj_iff hnames hnames).2 fun name => ?_
    cases hget : Bindings.get? fields name with
    | none => exact .none
    | some value => exact .some (ih _ (Bindings.mem_of_get? hget))

/-- An object with a name twice looks up the first value in the place of the second. -/
example : (Json.obj [("a", .null), ("a", .bool true)]).equals
    (.obj [("a", .null), ("a", .bool true)]) = false := rfl

/-- Options in a relation are in another one the other way round, if their values are. -/
theorem rel_flip {α β : Type} {r : α → β → Prop} {s : β → α → Prop} {x : Option α} {y : Option β}
    (h : Option.Rel r x y) (hflip : ∀ a b, x = some a → y = some b → r a b → s b a) :
    Option.Rel s y x := by
  cases h with
  | none => exact .none
  | some hab => exact .some (hflip _ _ rfl rfl hab)

/-- A comparison does not depend on the side. For two objects this is not seen from the definition,
which looks up the names of the first in the second. -/
theorem equals_symm {a b : Json} (ha : a.UniqueNames) (hb : b.UniqueNames)
    (h : a.equals b = true) : b.equals a = true := by
  -- The second value is known up to its parts from the comparison: one of another kind is never
  -- equal.
  induction ha generalizing b with
  | null =>
    cases b with
    | null => rfl
    | _ => cases h
  | bool value =>
    cases b with
    | bool other => exact beq_iff_eq.2 (beq_iff_eq.1 h).symm
    | _ => cases h
  | num value =>
    cases b with
    | num other => exact beq_iff_eq.2 (beq_iff_eq.1 h).symm
    | _ => cases h
  | str text =>
    cases b with
    | str other => exact beq_iff_eq.2 (beq_iff_eq.1 h).symm
    | _ => cases h
  | @arr items _ ih =>
    cases hb with
    | @arr others hothers =>
      rw [equals_arr_iff] at h ⊢
      intro i
      refine rel_flip (h i) fun item other hitem hother => ?_
      exact ih item (List.mem_of_getElem? hitem) (hothers other (List.mem_of_getElem? hother))
    | _ => cases h
  | @obj fields hnames _ ih =>
    cases hb with
    | @obj others hnames' hothers =>
      rw [equals_obj_iff hnames hnames'] at h
      refine (equals_obj_iff hnames' hnames).2 fun name => ?_
      refine rel_flip (h name) fun value other hvalue hother => ?_
      exact ih _ (Bindings.mem_of_get? hvalue) (hothers _ (Bindings.mem_of_get? hother))
    | _ => cases h

/-- Options in a chain of two relations are in a third one, if their values are. -/
theorem rel_comp {α β γ : Type} {r : α → β → Prop} {s : β → γ → Prop} {t : α → γ → Prop}
    {x : Option α} {y : Option β} {z : Option γ} (hxy : Option.Rel r x y) (hyz : Option.Rel s y z)
    (hcomp : ∀ a b c, x = some a → y = some b → z = some c → r a b → s b c → t a c) :
    Option.Rel t x z := by
  cases hxy with
  | none =>
    cases hyz with
    | none => exact .none
  | some hab =>
    cases hyz with
    | some hbc => exact .some (hcomp _ _ _ rfl rfl rfl hab hbc)

/-- What is equal to an equal value is equal. The values between two places of a chain are compared
by the induction hypothesis, and the chain goes through the middle value at each place. -/
theorem equals_trans {a b c : Json} (ha : a.UniqueNames) (hb : b.UniqueNames) (hc : c.UniqueNames)
    (h : a.equals b = true) (h' : b.equals c = true) : a.equals c = true := by
  induction ha generalizing b c with
  | null =>
    cases b with
    | null => exact h'
    | _ => cases h
  | bool value =>
    cases b with
    -- Truth values and texts are equal only to themselves, so one can be put for the other.
    | bool other => exact (beq_iff_eq.1 h : value = other) ▸ h'
    | _ => cases h
  | num value =>
    cases b with
    | num other =>
      cases c with
      | num third => exact beq_iff_eq.2 ((beq_iff_eq.1 h).trans (beq_iff_eq.1 h'))
      | _ => cases h'
    | _ => cases h
  | str text =>
    cases b with
    | str other => exact (beq_iff_eq.1 h : text = other) ▸ h'
    | _ => cases h
  | @arr items _ ih =>
    cases hb with
    | @arr others hothers =>
      cases hc with
      | @arr thirds hthirds =>
        rw [equals_arr_iff] at h h' ⊢
        intro i
        refine rel_comp (h i) (h' i) fun item other third hitem hother hthird => ?_
        exact ih item (List.mem_of_getElem? hitem) (hothers other (List.mem_of_getElem? hother))
          (hthirds third (List.mem_of_getElem? hthird))
      | _ => cases h'
    | _ => cases h
  | @obj fields hnames _ ih =>
    cases hb with
    | @obj others hnames' hothers =>
      cases hc with
      | @obj thirds hnames'' hthirds =>
        rw [equals_obj_iff hnames hnames'] at h
        rw [equals_obj_iff hnames' hnames''] at h'
        refine (equals_obj_iff hnames hnames'').2 fun name => ?_
        refine rel_comp (h name) (h' name) fun value other third hvalue hother hthird => ?_
        exact ih _ (Bindings.mem_of_get? hvalue) (hothers _ (Bindings.mem_of_get? hother))
          (hthirds _ (Bindings.mem_of_get? hthird))
      | _ => cases h'
    | _ => cases h

/-- **The equality of conditions is an equivalence relation** on the values in which no object has
a name twice, however deep they nest. -/
theorem equals_equivalence :
    Equivalence fun a b : { value : Json // value.UniqueNames } => a.1.equals b.1 = true where
  refl a := equals_self a.2
  symm {a b} h := equals_symm a.2 b.2 h
  trans {a b c} h h' := equals_trans a.2 b.2 c.2 h h'

end Json

end EdgeGuard
