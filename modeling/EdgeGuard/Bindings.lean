/-!
# `EdgeGuard.Bindings`: names bound to values, in the order of the names

A list of bindings keeps its names in strictly increasing order (`Bindings.Sorted`), so
that two lists with the same bindings are equal. The order of names is that of their
characters' code points.

* `Bindings.get?_insert` says what a lookup finds after a binding was made.
* `Bindings.sorted_insert` says that binding a name keeps the order.
-/

set_option autoImplicit false

namespace EdgeGuard

/-- Names bound to values. -/
abbrev Bindings (α : Type) := List (String × α)

namespace Bindings

variable {α β : Type}

/-- The value bound to a name. -/
def get? (bindings : Bindings α) (name : String) : Option α := bindings.lookup name

/-- Whether a name is bound. -/
def contains (bindings : Bindings α) (name : String) : Bool := (bindings.get? name).isSome

/-- The bound names, in order. -/
def names (bindings : Bindings α) : List String := bindings.map (·.1)

/-- Binds a name at its place in the order. An earlier binding of the name is replaced. -/
def insert : Bindings α → String → α → Bindings α
  | [], name, value => [(name, value)]
  | (key, bound) :: rest, name, value =>
    if name = key then (name, value) :: rest
    else if name < key then (name, value) :: (key, bound) :: rest
    else (key, bound) :: insert rest name value

/-- Makes the given bindings one after the other, so that the last one of a name stays. -/
def ofList (pairs : List (String × α)) : Bindings α :=
  pairs.foldl (fun bindings pair => bindings.insert pair.1 pair.2) []

/-- The bindings without those of the given names. -/
def without (bindings : Bindings α) (dropped : List String) : Bindings α :=
  bindings.filter fun pair => !dropped.contains pair.1

/-- The names are in strictly increasing order. -/
def Sorted (bindings : Bindings α) : Prop := bindings.Pairwise fun a b => a.1 < b.1

/-- No name is bound where there are no bindings. -/
@[simp] theorem get?_nil (name : String) : get? ([] : Bindings α) name = none := rfl

/-- The binding in front is the one that is found, if it has the name. -/
theorem get?_cons (key name : String) (value : α) (rest : Bindings α) :
    get? ((key, value) :: rest) name = if name = key then some value else get? rest name := by
  by_cases h : name = key
  · subst h
    simp [get?]
  · have hb : (name == key) = false := by simpa using h
    simp [get?, List.lookup_cons, hb, h]

/-- After a name is bound, a lookup of that name finds the new value and a lookup of any
other name finds what it found before. -/
theorem get?_insert (bindings : Bindings α) (name : String) (value : α) (query : String) :
    (bindings.insert name value).get? query
      = if query = name then some value else bindings.get? query := by
  induction bindings with
  | nil => simp [insert, get?_cons]
  | cons pair rest ih =>
    obtain ⟨key, bound⟩ := pair
    simp only [insert]
    split
    · next h =>
      subst h
      simp only [get?_cons]
      split <;> simp
    · next h =>
      split
      · simp only [get?_cons]
      · simp only [get?_cons, ih]
        split
        · next hk =>
          rw [if_neg]
          rintro rfl
          exact h hk
        · rfl

/-- An insertion brings in its own binding and no other. -/
theorem mem_insert {bindings : Bindings α} {name : String} {value : α} {pair : String × α}
    (h : pair ∈ bindings.insert name value) : pair = (name, value) ∨ pair ∈ bindings := by
  induction bindings with
  | nil => simpa [insert] using h
  | cons head rest ih =>
    obtain ⟨key, bound⟩ := head
    simp only [insert] at h
    split at h
    · rcases List.mem_cons.1 h with h | h
      · exact .inl h
      · exact .inr (List.mem_cons_of_mem _ h)
    · split at h
      · rcases List.mem_cons.1 h with h | h
        · exact .inl h
        · exact .inr h
      · rcases List.mem_cons.1 h with h | h
        · exact .inr (h ▸ List.mem_cons_self)
        · exact (ih h).imp_right (List.mem_cons_of_mem _)

/-- Binding a name keeps the names in order. -/
theorem sorted_insert {bindings : Bindings α} (h : Sorted bindings) (name : String)
    (value : α) : Sorted (bindings.insert name value) := by
  induction bindings with
  | nil => simp [insert, Sorted]
  | cons pair rest ih =>
    obtain ⟨key, bound⟩ := pair
    obtain ⟨hhead, hrest⟩ := List.pairwise_cons.1 h
    simp only [insert]
    split
    · next hk =>
      subst hk
      exact List.pairwise_cons.2 ⟨hhead, hrest⟩
    · next hne =>
      split
      · next hlt =>
        refine List.pairwise_cons.2 ⟨?_, h⟩
        intro other hother
        rcases List.mem_cons.1 hother with rfl | hmem
        · exact hlt
        · exact String.lt_trans hlt (hhead other hmem)
      · next hnlt =>
        refine List.pairwise_cons.2 ⟨?_, ih hrest⟩
        intro other hother
        rcases mem_insert hother with rfl | hmem
        · exact Decidable.byContradiction fun hge =>
            hne (String.le_antisymm (String.not_lt.1 hge) (String.not_lt.1 hnlt))
        · exact hhead other hmem

/-- Insertions keep the order. The induction is over the pairs, with the bindings so far general. -/
theorem sorted_foldl_insert (pairs : List (String × α)) {bindings : Bindings α}
    (h : Sorted bindings) :
    Sorted (pairs.foldl (fun bindings pair => bindings.insert pair.1 pair.2) bindings) := by
  induction pairs generalizing bindings with
  | nil => exact h
  | cons pair rest ih => exact ih (sorted_insert h pair.1 pair.2)

/-- Bindings made from a list are in the order of their names, whatever the order of the list. -/
theorem sorted_ofList (pairs : List (String × α)) : Sorted (ofList pairs) :=
  sorted_foldl_insert pairs List.Pairwise.nil

end Bindings

end EdgeGuard
