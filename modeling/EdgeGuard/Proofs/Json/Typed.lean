import EdgeGuard.Proofs.Json.RoundTrip
import Mathlib.Data.List.Forall2

/-!
# `EdgeGuard.Proofs.Json.Typed`: readers for one shape on written values

A typed reader does not go through a `Json` value: it walks over the text itself. What it does on
the text of a value is put as `Reader.Reads`, and stated once for each of the readers that ask for
one shape. `items_write_of_reads` hands it on from a reader to the reader of a list, and
`Reader.Reads.readAll_compact` to a whole text.
-/

set_option autoImplicit false

namespace EdgeGuard.Json

/-- The reader takes the text of a value off the front, whatever follows it, and gives a result.
Unlike `ReadsBack` it says nothing of depth: a typed reader asks for one shape and takes no
levels. -/
def Reader.Reads {α : Type} (reader : Reader α) (value : Json) (result : α) : Prop :=
  ∀ ⦃rest⦄, Ends rest → reader (value.write rest) = .ok (result, rest)

section
variable {α β : Type} {reader : Reader α}

/-- What is made of a result is read where the result is. -/
theorem Reader.Reads.map {value : Json} {result : α} (h : reader.Reads value result) (f : α → β) :
    Reader.Reads (fun cs => do
      let (x, rest) ← reader cs
      return (f x, rest)) value (f result) := by
  intro rest hrest
  show (reader (value.write rest) >>= _) = _
  rw [h hrest]
  rfl

/-- A reader that reads a value reads its compact text. -/
theorem Reader.Reads.readAll_compact {value : Json} {result : α} (h : reader.Reads value result) :
    readAll reader value.compact = .ok result := by
  have hread : reader (value.write []) = .ok (result, []) := h (by simp [Ends])
  unfold readAll compact
  rw [String.toList_ofList, hread]
  rfl

end

/-! ### Scalars -/

/-- A reader of strings reads a string. -/
theorem stringText_reads (text : String) : Reader.Reads stringText (.str text) text := by
  intro rest _
  rw [stringText, write, writeString, skipSpace_cons (by decide)]
  exact string_writeString text rest

/-- A reader of optional strings takes null as none. -/
theorem optionalText_reads_null : Reader.Reads optionalText .null none := by
  intro rest _
  rw [optionalText, write, skipSpace_cons (by decide)]
  rfl

/-- A reader of optional strings reads a string. -/
theorem optionalText_reads_str (text : String) :
    Reader.Reads optionalText (.str text) (some text) := by
  intro rest hrest
  -- No null is ahead, so the text is read as a string.
  rw [← (stringText_reads text).map some hrest, optionalText, write, writeString,
    skipSpace_cons (by decide)]
  rfl

/-- A reader of Booleans reads both words. -/
theorem boolText_reads (b : Bool) : Reader.Reads boolText (.bool b) b := by
  intro rest _
  cases b with
  | true =>
    rw [boolText, write, skipSpace_cons (by decide)]
    rfl
  | false =>
    rw [boolText, write, skipSpace_cons (by decide)]
    rfl

/-! ### Lists -/

section
variable {α : Type} {reader : Reader α}

/-- The items behind the first. As many steps as there are items suffice, and one for the bracket.
The values and the results are related one by one, so no result is made without its value. -/
theorem moreItems_write_of_reads {values : List Json} {results : List α}
    (h : List.Forall₂ reader.Reads values results) {fuel : Nat} (hfuel : values.length < fuel)
    (rest : List Char) :
    moreItems reader fuel (writeItems values (']' :: rest)) = .ok (results, rest) := by
  -- The induction is on the two lists together, which the relation keeps at one length.
  induction h generalizing fuel with
  | nil =>
    obtain ⟨fuel, rfl⟩ := Nat.exists_eq_add_of_lt hfuel
    simp [writeItems, moreItems, skipSpace_cons, isSpace]
  | @cons value result values results hvalue _ ih =>
    obtain ⟨fuel, rfl⟩ : ∃ k, fuel = k + 1 := ⟨fuel - 1, by omega⟩
    rw [List.length_cons] at hfuel
    have hmore := ih (show values.length < fuel by omega)
    obtain ⟨c, tail, hcs, hc⟩ := exists_cons_of_write value (writeItems values (']' :: rest))
    rw [writeItems, hcs, moreItems_cons _ _ hc, ← hcs, hvalue (ends_writeItems values rest),
      ok_bind]
    simp only
    rw [hmore]
    rfl

/-- What reads every item of an array reads the array behind its opening bracket. The brackets and
commas are those of the writer, whatever the items are. -/
theorem items_write_of_reads {values : List Json} {results : List α}
    (h : List.Forall₂ reader.Reads values results) (rest : List Char) :
    ∃ tail, (Json.arr values).write rest = '[' :: tail
      ∧ items reader tail = .ok (results, rest) := by
  cases h with
  | nil =>
    refine ⟨']' :: rest, rfl, ?_⟩
    rw [items, skipSpace_cons (by decide)]
    rfl
  | @cons value result values results hvalue hmore =>
    refine ⟨value.write (writeItems values (']' :: rest)), by rw [write], ?_⟩
    have hread := moreItems_write_of_reads hmore
      (Nat.lt_succ_of_le (length_le_writeItems values (']' :: rest))) rest
    obtain ⟨c, tail, hcs, hc⟩ := exists_cons_of_write value (writeItems values (']' :: rest))
    rw [hcs, items_cons _ hc, ← hcs, hvalue (ends_writeItems values rest), ok_bind]
    simp only
    rw [hread]
    rfl

end

end EdgeGuard.Json
