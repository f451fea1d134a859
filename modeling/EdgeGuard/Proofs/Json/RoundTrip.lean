import EdgeGuard.Json.Write
import EdgeGuard.Proofs.Json.Numbers
import EdgeGuard.Proofs.Json.Order
import EdgeGuard.Proofs.Json.Strings

/-!
# `EdgeGuard.Proofs.Json.RoundTrip`: a written value reads back

The compact text of a value is read as that value with its fields in order, and it is refused
exactly when the value nests deeper than the reader goes. `value_write` states both at once, for
every rest of the text that cannot extend a number: `fit needed depth result` is the result when
`needed` levels are available, and the fault of a text that nests too deep otherwise. So the
induction on the value carries the refusals along with the results.

* `read_compact` and `read_compact_of_deep` are the two halves for whole texts.
* `ordered_of_read` and `depth_le_of_read` say what every value that was read satisfies.
-/

set_option autoImplicit false

namespace EdgeGuard.Json

/-! ### The first character of a value -/

/-- A character that starts the text of a value. -/
def Starts (c : Char) : Prop := isSpace c = false ∧ c ≠ ']' ∧ c ≠ '\x7d' ∧ c ≠ ','

/-- Nothing is passed over in front of a character that is no white space. Written text has none
between its tokens, so the reader never has to skip. -/
theorem skipSpace_cons {c : Char} (h : isSpace c = false) (cs : List Char) :
    skipSpace (c :: cs) = c :: cs := by
  simp [skipSpace, h]

/-- A number starts with a digit or a sign, and with nothing else. -/
theorem ne_of_number {c d : Char} (h : c = '-' ∨ isDigit c = true) (hminus : d ≠ '-')
    (hdigit : isDigit d = false) : c ≠ d := by
  rintro rfl
  rcases h with h | h
  · exact hminus h
  · exact absurd h (by simp [hdigit])

/-- The first character of a number starts a value: it is no space, no closing bracket and no
comma. -/
theorem starts_of_number {c : Char} (h : c = '-' ∨ isDigit c = true) : Starts c := by
  have hne (d : Char) (hminus : d ≠ '-') (hdigit : isDigit d = false) : c ≠ d :=
    ne_of_number h hminus hdigit
  refine ⟨?_, hne _ (by decide) (by decide), hne _ (by decide) (by decide),
    hne _ (by decide) (by decide)⟩
  simp [isSpace, hne ' ' (by decide) (by decide), hne '\t' (by decide) (by decide),
    hne '\n' (by decide) (by decide), hne '\r' (by decide) (by decide)]

/-- A written value starts with a character of its own. The readers of arrays and objects look at
one character to see whether a bracket closes, and this is what they see in front of a value. -/
theorem exists_cons_of_write (value : Json) (rest : List Char) :
    ∃ c tail, value.write rest = c :: tail ∧ Starts c := by
  have hstarts : Starts 'n' ∧ Starts 't' ∧ Starts 'f' ∧ Starts '"' ∧ Starts '['
      ∧ Starts '\x7b' := by
    simp [Starts, isSpace]
  obtain ⟨hnull, htrue, hfalse, hquote, hbracket, hbrace⟩ := hstarts
  match value with
  | .null => exact ⟨'n', _, rfl, hnull⟩
  | .bool true => exact ⟨'t', _, rfl, htrue⟩
  | .bool false => exact ⟨'f', _, rfl, hfalse⟩
  | .str _ => exact ⟨'"', _, rfl, hquote⟩
  | .arr [] | .arr (_ :: _) => exact ⟨'[', _, rfl, hbracket⟩
  | .obj [] | .obj ((_, _) :: _) => exact ⟨'\x7b', _, rfl, hbrace⟩
  | .num n =>
    have hread := @number_chars n [] (by simp [Ends])
    obtain ⟨c, tail, hcs, hc⟩ := exists_cons_of_number hread
    rw [List.append_nil] at hcs
    refine ⟨c, tail ++ rest, ?_, starts_of_number hc⟩
    rw [write, hcs, List.cons_append]

/-! ### What follows a value -/

/-- Whatever follows the items of an array is left as it is, when this holds of each item. -/
theorem writeItems_append {items : List Json}
    (h : ∀ item ∈ items, ∀ rest more, item.write (rest ++ more) = item.write rest ++ more)
    (rest more : List Char) :
    writeItems items (rest ++ more) = writeItems items rest ++ more := by
  induction items with
  | nil => rfl
  | cons value items ih =>
    rw [writeItems, writeItems, ih fun item hitem => h item (List.mem_cons_of_mem _ hitem),
      h value List.mem_cons_self, List.cons_append]

/-- Whatever follows the fields of an object is left as it is, when this holds of each value. -/
theorem writeFields_append {fields : List (String × Json)}
    (h : ∀ field ∈ fields, ∀ rest more,
      field.2.write (rest ++ more) = field.2.write rest ++ more)
    (rest more : List Char) :
    writeFields fields (rest ++ more) = writeFields fields rest ++ more := by
  induction fields with
  | nil => rfl
  | cons field fields ih =>
    obtain ⟨name, value⟩ := field
    have hvalue := h (name, value) List.mem_cons_self
    simp only at hvalue
    rw [writeFields, writeFields, ih fun field hfield => h field (List.mem_cons_of_mem _ hfield),
      hvalue]
    simp [writeString]

/-- What follows a value is left as it is. The writer puts its text in front of what it is given, so
the text of a value is a prefix of its own. -/
theorem write_append (value : Json) (rest more : List Char) :
    value.write (rest ++ more) = value.write rest ++ more := by
  -- What follows is an argument of the writer, so the induction is over every rest.
  induction value generalizing rest more with
  | null => rfl
  | bool b => cases b <;> rfl
  | num n => rw [write, write, List.append_assoc]
  | str text => simp [write, writeString]
  | arr items ih =>
    cases items with
    | nil => rfl
    | cons first items =>
      rw [write, write, List.cons_append, ← List.cons_append,
        writeItems_append fun item hitem => ih item (List.mem_cons_of_mem _ hitem),
        ih first List.mem_cons_self]
  | obj fields ih =>
    cases fields with
    | nil => rfl
    | cons first fields =>
      obtain ⟨name, value⟩ := first
      have hvalue := ih (name, value) List.mem_cons_self
      simp only at hvalue
      rw [write, write, ← List.cons_append,
        writeFields_append fun field hfield => ih field (List.mem_cons_of_mem _ hfield), hvalue]
      simp [writeString]

/-- There are at least as many characters as items. The fuel of the reader is the number of
characters that are left, so it is enough for the items. -/
theorem length_le_writeItems (items : List Json) (rest : List Char) :
    items.length ≤ (writeItems items rest).length := by
  induction items with
  | nil => exact Nat.zero_le _
  | cons value items ih =>
    have hwrite := write_append value [] (writeItems items rest)
    rw [List.nil_append] at hwrite
    rw [writeItems, hwrite, List.length_cons, List.length_cons, List.length_append]
    omega

/-- There are at least as many characters as fields. -/
theorem length_le_writeFields (fields : List (String × Json)) (rest : List Char) :
    fields.length ≤ (writeFields fields rest).length := by
  induction fields with
  | nil => exact Nat.zero_le _
  | cons field fields ih =>
    obtain ⟨name, value⟩ := field
    have hwrite := write_append value [] (writeFields fields rest)
    rw [List.nil_append] at hwrite
    rw [writeFields, hwrite]
    simp only [writeString, List.length_cons, List.length_append]
    omega

/-- Behind the quote of a name there are more characters than fields behind that field. -/
theorem length_lt_field (name : String) (value : Json) (more : List (String × Json))
    (rest : List Char) :
    more.length < (name.toList.flatMap escape ++
      '"' :: ':' :: value.write (writeFields more rest)).length := by
  have hlength := length_le_writeFields more rest
  have hwrite := write_append value [] (writeFields more rest)
  rw [List.nil_append] at hwrite
  rw [hwrite]
  simp only [List.length_cons, List.length_append]
  omega

/-! ### Results within a depth -/

/-- A result for which `needed` levels of nesting are needed where `depth` are available. -/
def fit {α : Type} (needed depth : Nat) (result : α) : Except ReadError α :=
  if needed ≤ depth then .ok result else .error .malformed

/-- What follows a result goes on with it. -/
theorem ok_bind {ε α β : Type} (x : α) (f : α → Except ε β) : (.ok x >>= f) = f x := rfl

/-- Of two results one after the other, the one that needs more levels decides. This is how the
depth of an array is put together from those of its items. -/
theorem fit_bind {α β : Type} (needed more depth : Nat) (x : α) (y : β)
    {f : α → Except ReadError β} (hf : f x = fit more depth y) :
    (fit needed depth x >>= f) = fit (max needed more) depth y := by
  unfold fit at *
  -- Where the first does not fit the second is never reached, and the maximum does not fit either.
  by_cases h : needed ≤ depth
  · rw [if_pos h]
    show f x = _
    rw [hf]
    simp only [Nat.max_le, h, true_and]
  · rw [if_neg h, if_neg fun hmax => h (Nat.le_trans (Nat.le_max_left ..) hmax)]
    rfl

/-- What is made of a result needs as many levels as the result. -/
theorem fit_map {α β : Type} (needed depth : Nat) (x : α) (f : α → β) :
    (fit needed depth x >>= fun x => pure (f x)) = fit needed depth (f x) := by
  unfold fit
  split <;> rfl

/-- An array or an object takes one level of what is needed and one of what is there. -/
theorem fit_succ {α : Type} (needed depth : Nat) (result : α) :
    fit (needed + 1) (depth + 1) result = fit needed depth result := by
  unfold fit
  simp only [Nat.add_le_add_iff_right]

/-- A value is read back from its text at every depth: as the value in order where its nesting fits,
and as a fault where it does not. What follows is any text that cannot go on with a number: in a
value it is a comma or a closing bracket, and at the end it is nothing. -/
def ReadsBack (value : Json) : Prop :=
  ∀ (depth : Nat) (rest : List Char), Ends rest →
    Json.value depth (value.write rest) = fit value.depth depth (value.ordered, rest)

/-! ### Scalars -/

/-- The text of null is read back at every depth, even when no level is left. -/
theorem readsBack_null : ReadsBack .null := by
  intro depth rest _
  simp [write, value, skipSpace_cons, isSpace, word, fit, Json.depth, ordered, bind, Except.bind,
    pure, Except.pure]

/-- The text of a Boolean is read back at every depth. -/
theorem readsBack_bool (b : Bool) : ReadsBack (.bool b) := by
  intro depth rest _
  cases b <;>
    simp [write, value, skipSpace_cons, isSpace, word, fit, Json.depth, ordered, bind, Except.bind,
      pure, Except.pure]

/-- The text of a string is read back at every depth. Its closing quote ends it, so nothing is asked
of what follows. -/
theorem readsBack_str (text : String) : ReadsBack (.str text) := by
  intro depth rest _
  simp [write, writeString, value, skipSpace_cons, isSpace, string_writeString, fit, Json.depth,
    ordered, bind, Except.bind, pure, Except.pure]

/-- The text of a number is read back at every depth. This is where what follows must not go on with
the number. -/
theorem readsBack_num (n : Number) : ReadsBack (.num n) := by
  intro depth rest hrest
  have hread := number_chars n hrest
  obtain ⟨c, tail, hcs, hc⟩ := exists_cons_of_number hread
  rw [write, hcs, value, skipSpace_cons (starts_of_number hc).1]
  rw [hcs] at hread
  split <;> rename_i h <;> cases h
  case h_8 =>
    rw [if_pos hc, hread]
    rfl
  -- No other kind of value starts with a sign or a digit.
  all_goals exact absurd hc (by decide)

/-! ### Arrays -/

/-- The marks between and behind the parts of a value do not go on with a number. -/
theorem ends_of_mem {c : Char} (h : c ∈ [',', ']', '\x7d']) (rest : List Char) :
    Ends (c :: rest) := by
  intro d hd
  rw [List.head?_cons, Option.mem_some_iff] at hd
  subst hd
  simp only [List.mem_cons, List.not_mem_nil, or_false] at h
  rcases h with rfl | rfl | rfl <;> decide

/-- A comma or the closing bracket follows every item of an array. -/
theorem ends_writeItems (more : List Json) (rest : List Char) :
    Ends (writeItems more (']' :: rest)) := by
  cases more with
  | nil => exact ends_of_mem (by simp) _
  | cons value more => exact ends_of_mem (by simp) _

/-- The first item of an array stands behind the bracket. The first step of the reader is told apart
from the later ones, which ask for a comma. -/
theorem items_cons {α : Type} (item : Reader α) {c : Char} (hc : Starts c) (tail : List Char) :
    items item (c :: tail) = (do
      let (value, rest) ← item (c :: tail)
      let (values, rest) ← moreItems item (rest.length + 1) rest
      return (value :: values, rest)) := by
  rw [items, skipSpace_cons hc.1]
  split
  · next h => cases h
  · next h =>
    cases h
    exact absurd rfl hc.2.1
  · rfl

/-- Every other item stands behind a comma. Both steps go on in the same way behind that comma. -/
theorem moreItems_cons {α : Type} (item : Reader α) (fuel : Nat) {c : Char} (hc : Starts c)
    (tail : List Char) :
    moreItems item (fuel + 1) (',' :: c :: tail) = (do
      let (value, rest) ← item (c :: tail)
      let (values, rest) ← moreItems item fuel rest
      return (value :: values, rest)) := by
  rw [moreItems, skipSpace_cons (by decide)]
  simp only
  rw [skipSpace_cons hc.1]
  split
  · next h => cases h
  · next h =>
    cases h
    exact absurd rfl hc.2.1
  · rfl

/-- An item is read before the items behind it, which `next` reads. The first item and the later
ones share it, each with its own reader of what comes next. It adds up the levels that are
needed. -/
theorem readItem_bind {first : Json} (hfirst : ReadsBack first) {more : List Json} {depth : Nat}
    {rest cs : List Char} (hcs : Ends cs)
    (next : List Char → Except ReadError (List Json × List Char))
    (hnext : next cs = fit (depthItems more) depth (orderedItems more, rest)) :
    (do
      let (value, rest) ← value depth (first.write cs)
      let (values, rest) ← next rest
      return (value :: values, rest))
      = fit (depthItems (first :: more)) depth (orderedItems (first :: more), rest) := by
  rw [hfirst depth cs hcs]
  refine fit_bind _ _ _ _ _ ?_
  show (next cs >>= _) = _
  rw [hnext]
  exact fit_map _ _ _ _

/-- The items behind the first are read back. As many steps as there are items suffice, and one
for the bracket. -/
theorem moreItems_writeItems {more : List Json} (h : ∀ value ∈ more, ReadsBack value)
    (depth fuel : Nat) (hfuel : more.length < fuel) (rest : List Char) :
    moreItems (value depth) fuel (writeItems more (']' :: rest))
      = fit (depthItems more) depth (orderedItems more, rest) := by
  -- The induction is on the items. Each takes one step of the fuel and leaves a shorter list.
  induction more generalizing fuel with
  | nil =>
    obtain ⟨fuel, rfl⟩ := Nat.exists_eq_add_of_lt hfuel
    simp [writeItems, moreItems, skipSpace_cons, isSpace, fit, depthItems, orderedItems]
  | cons first more ih =>
    obtain ⟨fuel, rfl⟩ : ∃ k, fuel = k + 1 := ⟨fuel - 1, by omega⟩
    rw [List.length_cons] at hfuel
    have hmore := ih (fun value hv => h value (List.mem_cons_of_mem _ hv)) fuel (by omega)
    have hitem := readItem_bind (h first List.mem_cons_self) (ends_writeItems more rest) _ hmore
    -- The reader looks at the first character of the item to see that no bracket closes here.
    obtain ⟨c, tail, hcs, hc⟩ := exists_cons_of_write first (writeItems more (']' :: rest))
    rw [writeItems, hcs, moreItems_cons _ _ hc, ← hcs]
    exact hitem

/-- The items of an array are read back behind its opening bracket. -/
theorem items_write {first : Json} {more : List Json}
    (h : ∀ item ∈ first :: more, ReadsBack item) (depth : Nat) (rest : List Char) :
    items (value depth) (first.write (writeItems more (']' :: rest)))
      = fit (depthItems (first :: more)) depth (orderedItems (first :: more), rest) := by
  have hmore := moreItems_writeItems (fun value hv => h value (List.mem_cons_of_mem _ hv)) depth
    -- The reader counts its steps by the characters that are left, of which there are enough.
    ((writeItems more (']' :: rest)).length + 1)
    (Nat.lt_succ_of_le (length_le_writeItems more _)) rest
  have hitem := readItem_bind (h first List.mem_cons_self) (ends_writeItems more rest)
    (fun rest => moreItems (value depth) (rest.length + 1) rest) hmore
  obtain ⟨c, tail, hcs, hc⟩ := exists_cons_of_write first (writeItems more (']' :: rest))
  rw [hcs, items_cons _ hc, ← hcs]
  exact hitem

/-- An array is refused when no level is left for it. -/
theorem value_bracket_zero (cs : List Char) : value 0 ('[' :: cs) = .error .malformed := by
  rw [value, skipSpace_cons (by decide)]
  rfl

/-- An array takes one level, and its items are read with the others. -/
theorem value_bracket_succ (depth : Nat) (cs : List Char) :
    value (depth + 1) ('[' :: cs)
      = (items (value depth) cs >>= fun result => pure (.arr result.1, result.2)) := by
  rw [value, skipSpace_cons (by decide)]
  rfl

/-- An array is read back when its items are. Without a level left it is refused before its items
are read, with the fault that a deep item gives too. -/
theorem readsBack_arr {items : List Json} (h : ∀ item ∈ items, ReadsBack item) :
    ReadsBack (.arr items) := by
  intro depth rest _
  show _ = fit (depthItems items + 1) depth (Json.arr (orderedItems items), rest)
  cases items with
  | nil =>
    rw [write]
    -- The array itself takes a level: without one it is refused before its items are read.
    cases depth with
    | zero => exact value_bracket_zero _
    | succ depth =>
      rw [value_bracket_succ, fit_succ, Json.items, skipSpace_cons (by decide)]
      rfl
  | cons first more =>
    rw [write]
    cases depth with
    | zero => exact value_bracket_zero _
    | succ depth =>
      rw [value_bracket_succ, fit_succ, items_write h]
      exact fit_map _ _ _ _

/-! ### Objects -/

/-- A comma or the closing brace follows every field of an object. -/
theorem ends_writeFields (more : List (String × Json)) (rest : List Char) :
    Ends (writeFields more ('\x7d' :: rest)) := by
  cases more with
  | nil => exact ends_of_mem (by simp) _
  | cons field more => exact ends_of_mem (by simp) _

/-- The colon behind a name is taken off the text. -/
theorem colon_cons (cs : List Char) : colon (':' :: cs) = .ok cs := by
  rw [colon, skipSpace_cons (by decide)]
  rfl

/-- A field is read back behind the opening quote of its name. The name takes no level, so what is
needed is what the value needs. -/
theorem field_write {v : Json} (hv : ReadsBack v) (name : String) (depth : Nat) {cs : List Char}
    (hcs : Ends cs) :
    field string (value depth) (name.toList.flatMap escape ++ '"' :: ':' :: v.write cs)
      = fit v.depth depth ((name, v.ordered), cs) := by
  rw [field, string_writeString, ok_bind]
  simp only
  rw [colon_cons, ok_bind, hv depth cs hcs]
  exact fit_map _ _ _ _

/-- At the closing brace there is no further field. -/
theorem nextField_brace (rest : List Char) : nextField ('\x7d' :: rest) = .ok (false, rest) := by
  rw [nextField, skipSpace_cons (by decide)]
  rfl

/-- Behind a comma there is a further field, and the quote that opens its name is taken. -/
theorem nextField_comma (rest : List Char) : nextField (',' :: '"' :: rest) = .ok (true, rest) := by
  rw [nextField, skipSpace_cons (by decide)]
  simp only
  rw [skipSpace_cons (by decide)]
  rfl

/-- The fields of an object are read back behind the opening quote of the first name. As many steps
as there are fields suffice. It is stated with the first field in front because a name is read
behind its quote, which the mark before it has already taken. -/
theorem moreFields_write {name : String} {v : Json} {more : List (String × Json)}
    (h : ∀ field ∈ (name, v) :: more, ReadsBack field.2) (depth fuel : Nat)
    (hfuel : more.length < fuel) (rest : List Char) :
    moreFields string (value depth) fuel
        (name.toList.flatMap escape ++ '"' :: ':' :: v.write (writeFields more ('\x7d' :: rest)))
      = fit (depthFields ((name, v) :: more)) depth (orderedFields ((name, v) :: more), rest) := by
  -- The induction is on the fields behind the first, which has its own name and value in each step.
  induction more generalizing name v fuel with
  | nil =>
    obtain ⟨fuel, rfl⟩ : ∃ k, fuel = k + 1 := ⟨fuel - 1, by omega⟩
    rw [moreFields, field_write (h (name, v) List.mem_cons_self) name depth
      (ends_writeFields [] rest)]
    refine fit_bind _ _ _ _ _ ?_
    show (nextField ('\x7d' :: rest) >>= _) = _
    rw [nextField_brace]
    simp [fit, depthFields, orderedFields, bind, Except.bind, pure, Except.pure]
  | cons second more ih =>
    obtain ⟨name', v'⟩ := second
    obtain ⟨fuel, rfl⟩ : ∃ k, fuel = k + 1 := ⟨fuel - 1, by omega⟩
    rw [List.length_cons] at hfuel
    have hmore := ih (fun field hf => h field (List.mem_cons_of_mem _ hf)) fuel (by omega)
    rw [moreFields, field_write (h (name, v) List.mem_cons_self) name depth
      (ends_writeFields _ rest)]
    refine fit_bind _ _ _ _ _ ?_
    -- The comma leads to the quote of the next name, and from there on it is the same again.
    show (nextField (',' :: '"' :: (name'.toList.flatMap escape ++ '"' :: ':' ::
      v'.write (writeFields more ('\x7d' :: rest)))) >>= _) = _
    rw [nextField_comma]
    show (moreFields string (value depth) fuel _ >>= _) = _
    rw [hmore]
    exact fit_map _ _ _ _

/-- An object is refused when no level is left for it. -/
theorem value_brace_zero (cs : List Char) : value 0 ('\x7b' :: cs) = .error .malformed := by
  rw [value, skipSpace_cons (by decide)]
  rfl

/-- An object takes one level, and its fields are read with the others. They are put in the order of
their names, where a later field takes the place of an earlier one. -/
theorem value_brace_succ (depth : Nat) (cs : List Char) :
    value (depth + 1) ('\x7b' :: cs) = (fields string (value depth) cs >>= fun result =>
      pure (.obj (Bindings.ofList result.1), result.2)) := by
  rw [value, skipSpace_cons (by decide)]
  rfl

/-- An object that closes at once has no fields. -/
theorem fields_brace (depth : Nat) (rest : List Char) :
    fields string (value depth) ('\x7d' :: rest) = .ok ([], rest) := by
  rw [fields, firstField, skipSpace_cons (by decide)]
  rfl

/-- Behind the quote of the first name the fields are read one by one. The characters that are left
bound their number. -/
theorem fields_quote (depth : Nat) (rest : List Char) :
    fields string (value depth) ('"' :: rest)
      = moreFields string (value depth) (rest.length + 1) rest := by
  rw [fields, firstField, skipSpace_cons (by decide)]
  rfl

/-- An object is read back when the values of its fields are. The fields are sorted when they are
read, and of one name twice the later one stays, as `ordered` has it. -/
theorem readsBack_obj {fields : List (String × Json)} (h : ∀ field ∈ fields, ReadsBack field.2) :
    ReadsBack (.obj fields) := by
  intro depth rest _
  show _ = fit (depthFields fields + 1) depth
    (Json.obj (Bindings.ofList (orderedFields fields)), rest)
  cases fields with
  | nil =>
    rw [write]
    cases depth with
    | zero => exact value_brace_zero _
    | succ depth =>
      rw [value_brace_succ, fit_succ, fields_brace]
      rfl
  | cons first more =>
    obtain ⟨name, v⟩ := first
    rw [write, writeString]
    cases depth with
    | zero => exact value_brace_zero _
    | succ depth =>
      rw [value_brace_succ, fit_succ, fields_quote, moreFields_write h]
      · exact fit_map _ _ _ _
      -- The fuel is the length of the rest, in which each field has a character of its own.
      · exact Nat.lt_succ_of_lt (length_lt_field name v more _)

/-! ### Whole texts -/

/-- Every value is read back from its text, within its depth. The lemmas for the kinds of value are
the cases of the induction. -/
theorem readsBack (value : Json) : ReadsBack value := by
  induction value with
  | null => exact readsBack_null
  | bool b => exact readsBack_bool b
  | num n => exact readsBack_num n
  | str text => exact readsBack_str text
  | arr items ih => exact readsBack_arr ih
  | obj fields ih => exact readsBack_obj ih

/-- Values whose fields are in order are told apart by their texts, also where more text follows. It
is shown by reading both, and what is read has its fields in order. Behind a number a digit could
belong to either part. -/
theorem write_append_inj {a b : Json} (ha : a.Ordered) (hb : b.Ordered) {rest rest' : List Char}
    (hrest : Ends rest) (hrest' : Ends rest') (h : a.write rest = b.write rest') :
    a = b ∧ rest = rest' := by
  -- Both are read at a depth that is enough for either.
  have hread := readsBack a (max a.depth b.depth) rest hrest
  rw [h, readsBack b _ rest' hrest', fit, fit, if_pos (Nat.le_max_right ..),
    if_pos (Nat.le_max_left ..), ordered_eq_self ha, ordered_eq_self hb] at hread
  cases hread
  exact ⟨rfl, rfl⟩

/-- The compact text of a value is read as the value in order where it nests at most as deep as a
text may, and is refused where it nests deeper. Both directions are one equation, so a text is
refused for its depth exactly when it is too deep. -/
theorem read_compact (value : Json) :
    read value.compact = fit value.depth depthLimit value.ordered := by
  have hread := readsBack value depthLimit [] (by simp [Ends])
  unfold read readAll compact
  rw [String.toList_ofList, hread]
  unfold fit
  by_cases h : value.depth ≤ depthLimit
  · rw [if_pos h, if_pos h]
    rfl
  · rw [if_neg h, if_neg h]
    rfl

/-! ### What is read -/

/-- A result behind two steps is the result of the second on that of the first. -/
theorem exists_of_bind {ε α β : Type} {x : Except ε α} {f : α → Except ε β} {y : β}
    (h : (x >>= f) = .ok y) : ∃ a, x = .ok a ∧ f a = .ok y := by
  cases x with
  | error e => exact absurd h (by simp [bind, Except.bind])
  | ok a => exact ⟨a, rfl, h⟩

section
variable {α : Type} {P : α → Prop} {item : Reader α}

/-- What every item satisfies, the items behind the first satisfy, however many steps are allowed.
It does not matter what the items are read as, so the lemma serves for order and depth at once. -/
theorem forall_of_moreItems (h : ∀ cs x rest, item cs = .ok (x, rest) → P x) (fuel : Nat)
    {cs rest : List Char} {xs : List α} (hxs : moreItems item fuel cs = .ok (xs, rest)) :
    ∀ x ∈ xs, P x := by
  -- The reader recurses on its fuel, and so does the induction.
  induction fuel generalizing cs xs with
  | zero => exact absurd hxs (by simp [moreItems])
  | succ fuel ih =>
    rw [moreItems] at hxs
    split at hxs
    · exact absurd hxs (by simp)
    · cases hxs
      exact fun x hx => absurd hx List.not_mem_nil
    · split at hxs
      · exact absurd hxs (by simp)
      · exact absurd hxs (by simp)
      · obtain ⟨⟨x, afterItem⟩, hx, hxs⟩ := exists_of_bind hxs
        obtain ⟨⟨more, afterMore⟩, hmore, hxs⟩ := exists_of_bind hxs
        cases hxs
        exact List.forall_mem_cons.2 ⟨h _ _ _ hx, ih hmore⟩
    · exact absurd hxs (by simp)

/-- What every item satisfies, every item of an array satisfies. -/
theorem forall_of_items (h : ∀ cs x rest, item cs = .ok (x, rest) → P x) {cs rest : List Char}
    {xs : List α} (hxs : items item cs = .ok (xs, rest)) : ∀ x ∈ xs, P x := by
  rw [items] at hxs
  split at hxs
  · exact absurd hxs (by simp)
  · cases hxs
    exact fun x hx => absurd hx List.not_mem_nil
  · obtain ⟨⟨x, afterItem⟩, hx, hxs⟩ := exists_of_bind hxs
    obtain ⟨⟨more, afterMore⟩, hmore, hxs⟩ := exists_of_bind hxs
    cases hxs
    exact List.forall_mem_cons.2 ⟨h _ _ _ hx, forall_of_moreItems h _ hmore⟩

variable {ν : Type} {name : Reader ν}

/-- What every value satisfies, the values of the fields behind the first quote satisfy. -/
theorem forall_of_moreFields (h : ∀ cs x rest, item cs = .ok (x, rest) → P x) (fuel : Nat)
    {cs rest : List Char} {pairs : List (ν × α)}
    (hpairs : moreFields name item fuel cs = .ok (pairs, rest)) :
    ∀ pair ∈ pairs, P pair.2 := by
  induction fuel generalizing cs pairs with
  | zero => exact absurd hpairs (by simp [moreFields])
  | succ fuel ih =>
    rw [moreFields] at hpairs
    obtain ⟨⟨pair, afterField⟩, hpair, hpairs⟩ := exists_of_bind hpairs
    obtain ⟨⟨goesOn, afterMark⟩, -, hpairs⟩ := exists_of_bind hpairs
    -- Of the three parts of a field only the last is a value.
    have hvalue : P pair.2 := by
      obtain ⟨⟨key, afterName⟩, -, hpair⟩ := exists_of_bind hpair
      obtain ⟨afterColon, -, hpair⟩ := exists_of_bind hpair
      obtain ⟨⟨x, afterValue⟩, hx, hpair⟩ := exists_of_bind hpair
      cases hpair
      exact h _ _ _ hx
    cases goesOn with
    | false =>
      cases hpairs
      exact List.forall_mem_singleton.2 hvalue
    | true =>
      obtain ⟨⟨more, afterMore⟩, hmore, hpairs⟩ := exists_of_bind hpairs
      cases hpairs
      exact List.forall_mem_cons.2 ⟨hvalue, ih hmore⟩

/-- What every value satisfies, the value of every field of an object satisfies. -/
theorem forall_of_fields (h : ∀ cs x rest, item cs = .ok (x, rest) → P x) {cs rest : List Char}
    {pairs : List (ν × α)} (hpairs : fields name item cs = .ok (pairs, rest)) :
    ∀ pair ∈ pairs, P pair.2 := by
  obtain ⟨⟨goesOn, afterMark⟩, -, hpairs⟩ := exists_of_bind hpairs
  cases goesOn with
  | false =>
    cases hpairs
    exact fun pair hpair => absurd hpair List.not_mem_nil
  | true => exact forall_of_moreFields h _ hpairs

end

/-- A value that was read has its fields in order and nests no deeper than the reader goes. The two
are shown together because one induction over the levels gives both. -/
theorem ordered_and_depth_of_value (depth : Nat) {cs rest : List Char} {v : Json}
    (h : value depth cs = .ok (v, rest)) : v.Ordered ∧ v.depth ≤ depth := by
  -- The induction is on the levels that are left. Scalars take none and are in order.
  induction depth using Nat.strongRecOn generalizing cs rest v with
  | _ depth ih =>
    rw [value] at h
    split at h
    · exact absurd h (by simp)
    · obtain ⟨_, -, h⟩ := exists_of_bind h
      cases h
      exact ⟨trivial, Nat.zero_le _⟩
    · obtain ⟨_, -, h⟩ := exists_of_bind h
      cases h
      exact ⟨trivial, Nat.zero_le _⟩
    · obtain ⟨_, -, h⟩ := exists_of_bind h
      cases h
      exact ⟨trivial, Nat.zero_le _⟩
    · obtain ⟨_, -, h⟩ := exists_of_bind h
      cases h
      exact ⟨trivial, Nat.zero_le _⟩
    · -- An array takes one level, and its items have the others.
      cases depth with
      | zero => exact absurd h (by simp)
      | succ depth =>
        obtain ⟨⟨values, afterItems⟩, hvalues, h⟩ := exists_of_bind h
        cases h
        have hall := forall_of_items (fun cs x rest hx => ih depth (Nat.lt_succ_self _) hx) hvalues
        exact ⟨(orderedItems_iff _).2 fun x hx => (hall x hx).1,
          Nat.succ_le_succ ((depthItems_le_iff _ _).2 fun x hx => (hall x hx).2)⟩
    · cases depth with
      | zero => exact absurd h (by simp)
      | succ depth =>
        obtain ⟨⟨pairs, afterFields⟩, hpairs, h⟩ := exists_of_bind h
        cases h
        have hall := forall_of_fields (fun cs x rest hx => ih depth (Nat.lt_succ_self _) hx) hpairs
        have hmem : ∀ pair ∈ Bindings.ofList pairs, pair.2.Ordered ∧ pair.2.depth ≤ depth :=
          fun pair hpair => hall pair (Bindings.mem_of_mem_ofList hpair)
        exact ⟨⟨Bindings.sorted_ofList _, (orderedFields_iff _).2 fun pair hp => (hmem pair hp).1⟩,
          Nat.succ_le_succ ((depthFields_le_iff _ _).2 fun pair hp => (hmem pair hp).2)⟩
    · split at h
      · obtain ⟨_, -, h⟩ := exists_of_bind h
        cases h
        exact ⟨trivial, Nat.zero_le _⟩
      · exact absurd h (by simp)

/-- A whole text that was read gave a value in order, of at most the nesting that a text may
have. -/
theorem ordered_and_depth_of_read {text : String} {v : Json} (h : read text = .ok v) :
    v.Ordered ∧ v.depth ≤ depthLimit := by
  obtain ⟨⟨result, rest⟩, hread, h⟩ := exists_of_bind h
  simp only at h
  split at h
  · cases h
    exact ordered_and_depth_of_value depthLimit hread
  · exact absurd h (by simp)

/-- A value that was read has its fields in order. -/
theorem ordered_of_read {text : String} {v : Json} (h : read text = .ok v) : v.Ordered :=
  (ordered_and_depth_of_read h).1

/-- A value that was read nests no deeper than a text may. -/
theorem depth_le_of_read {text : String} {v : Json} (h : read text = .ok v) :
    v.depth ≤ depthLimit :=
  (ordered_and_depth_of_read h).2

end EdgeGuard.Json
