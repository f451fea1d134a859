import EdgeGuard.Edge.Decode
import EdgeGuard.Proofs.Json.Skip
import EdgeGuard.Proofs.Json.Typed

/-!
# `EdgeGuard.Proofs.Edge.Reader`: edges from text as from values

`Edge.reader` and `Edge.ofJson` are two decoders of the same two forms. Where the second gives an
edge for a value in which no field of an edge is named twice, the first gives that edge for the
text of the value: `reader_reads`. Both fill a draft field by field, so the induction goes over the
fields of the object or the items of the array, and its step is one field: `Draft.readField_known`,
`Draft.readField_unknown` and `Draft.read_reads`.

That no field is named twice is needed: the text is refused at the second, while a value keeps the
last. `Draft.Fresh` carries it through the induction.
-/

set_option autoImplicit false

namespace EdgeGuard

open Json (Ends ok_bind exists_of_bind skipSpace_cons)

/-- The fields of an edge that an object names, in the order in which they stand. A field that
stands twice is listed twice, which is how `NamesOnce` sees it. -/
def EdgeField.named (fields : List (String × Json)) : List EdgeField :=
  fields.filterMap fun field => EdgeField.ofName? field.1

/-- A name that is no field's names none. -/
theorem EdgeField.named_cons_none {name : String} (h : ofName? name = none) (value : Json)
    (more : List (String × Json)) : named ((name, value) :: more) = named more :=
  List.filterMap_cons_none h

/-- A name that is a field's names this field first. -/
theorem EdgeField.named_cons_some {name : String} {field : EdgeField}
    (h : ofName? name = some field) (value : Json) (more : List (String × Json)) :
    named ((name, value) :: more) = field :: named more :=
  List.filterMap_cons_some h

namespace Edge

/-- A result that is no mismatch is no error of a reader. -/
theorem ofMismatch_ok {α : Type} (result : α) : ofMismatch (.ok result) = .ok result := rfl

namespace Draft

variable {draft d : Draft}

/-! ### One field -/

/-- Only a string has a text. So what is set from a value is known from the value, and its text can
be read. -/
theorem eq_of_textOf {value : Json} {text : String} (h : textOf value = .ok text) :
    value = .str text := by
  cases value <;> simp [textOf] at h
  rw [h]

/-- What has a text as a value has it in writing. -/
theorem stringText_reads_of_textOf {value : Json} {text : String} (h : textOf value = .ok text) :
    Json.Reader.Reads Json.stringText value text := by
  rw [eq_of_textOf h]
  exact Json.stringText_reads text

/-- What has a text or is null as a value is so in writing. The reader has to look one character
ahead to tell the two. -/
theorem optionalText_reads_of_optionalTextOf {value : Json} {text : Option String}
    (h : optionalTextOf value = .ok text) : Json.Reader.Reads Json.optionalText value text := by
  unfold optionalTextOf at h
  split at h
  · cases h
    exact Json.optionalText_reads_null
  · cases hvalue : textOf value with
    | error e => exact absurd h (by simp [hvalue, Except.map])
    | ok text =>
      rw [hvalue] at h
      cases h
      rw [eq_of_textOf hvalue]
      exact Json.optionalText_reads_str text

/-- What is a truth value as a value is one in writing. -/
theorem boolText_reads_of_boolOf {value : Json} {b : Bool} (h : boolOf value = .ok b) :
    Json.Reader.Reads Json.boolText value b := by
  cases value <;> simp [boolOf] at h
  rw [h]
  exact Json.boolText_reads b

/-- The text of a value gives a field what the value gives it. There is one case for each kind of
field: a text, a text that may be missing, and a truth value. -/
theorem read_reads {field : EdgeField} {value : Json} (h : draft.set field value = .ok d) :
    Json.Reader.Reads (draft.read field) value d := by
  cases field with
  | id =>
    obtain ⟨text, htext, h⟩ := exists_of_bind h
    cases h
    exact (stringText_reads_of_textOf htext).map fun text => { draft with id := some text }
  | source =>
    obtain ⟨text, htext, h⟩ := exists_of_bind h
    cases h
    exact (stringText_reads_of_textOf htext).map fun text => { draft with source := some text }
  | target =>
    obtain ⟨text, htext, h⟩ := exists_of_bind h
    cases h
    exact (stringText_reads_of_textOf htext).map fun text => { draft with target := some text }
  | label =>
    obtain ⟨text, htext, h⟩ := exists_of_bind h
    cases h
    exact (optionalText_reads_of_optionalTextOf htext).map fun text =>
      { draft with label := some text }
  | isConditional =>
    obtain ⟨b, hb, h⟩ := exists_of_bind h
    cases h
    exact (boolText_reads_of_boolOf hb).map fun b => { draft with isConditional := some b }
  | condition =>
    obtain ⟨text, htext, h⟩ := exists_of_bind h
    cases h
    exact (optionalText_reads_of_optionalTextOf htext).map fun text =>
      { draft with condition := some text }

/-- A field that was set is known, and every other is as known as before. This is what keeps the
reader from seeing a field twice that is named once. -/
theorem has_of_set {field : EdgeField} {value : Json} (h : draft.set field value = .ok d)
    (other : EdgeField) : d.has other = (draft.has other || decide (other = field)) := by
  -- The cases differ in what is read from the value, which does not matter here.
  cases field <;>
    · obtain ⟨x, -, h⟩ := exists_of_bind h
      cases h
      cases other <;> simp [has]

/-! ### Objects -/

/-- The value of a field that is not known yet is read into the draft. Without the second hypothesis
the text is refused, since the reader takes no field twice. -/
theorem readField_known {name : String} {field : EdgeField} {value : Json} {cs : List Char}
    (hname : EdgeField.ofName? name = some field) (hnew : draft.has field = false)
    (h : draft.set field value = .ok d) (hcs : Ends cs) :
    draft.readField (name.toList.flatMap Json.escape ++ '"' :: ':' :: value.write cs)
      = .ok (d, cs) := by
  rw [readField, Json.string_writeString, ok_bind]
  simp only [hname, hnew, Bool.false_eq_true, if_false, Json.colon_cons, ok_bind]
  exact read_reads h hcs

/-- The value of a name that is no field's is passed over. Such a value is only checked for its
grammar, by `Json.skip`, and a written value passes that check however deep it nests. -/
theorem readField_unknown {name : String} (hname : EdgeField.ofName? name = none) (value : Json)
    {cs : List Char} (hcs : Ends cs) :
    draft.readField (name.toList.flatMap Json.escape ++ '"' :: ':' :: value.write cs)
      = .ok (draft, cs) := by
  rw [readField, Json.string_writeString, ok_bind]
  simp only [hname, Json.colon_cons, ok_bind, Json.skip_write value hcs]
  rfl

/-- Each field that an object names is named once, and none of them is known yet. It holds of a
blank draft and of any object that names its fields once, and one field read hands it on to those
behind it. -/
structure Fresh (draft : Draft) (fields : List (String × Json)) : Prop where
  once : (EdgeField.named fields).Nodup
  unknown : ∀ field ∈ EdgeField.named fields, draft.has field = false

/-- One name and its value: the text brings the draft where the value brings it. The draft may stay
as it is, when the name is no field's. -/
theorem exists_readField {name : String} {value : Json} {more : List (String × Json)}
    (h : draft.setAll ((name, value) :: more) = .ok d)
    (hfresh : draft.Fresh ((name, value) :: more)) {cs : List Char} (hcs : Ends cs) :
    ∃ next : Draft, draft.readField
        (name.toList.flatMap Json.escape ++ '"' :: ':' :: value.write cs) = .ok (next, cs)
      ∧ next.setAll more = .ok d ∧ next.Fresh more := by
  obtain ⟨honce, hunknown⟩ := hfresh
  rw [setAll] at h
  cases hname : EdgeField.ofName? name with
  | none =>
    simp only [hname] at h
    rw [EdgeField.named_cons_none hname] at honce hunknown
    exact ⟨draft, readField_unknown hname value hcs, h, honce, hunknown⟩
  | some field =>
    simp only [hname] at h
    obtain ⟨next, hnext, h⟩ := exists_of_bind h
    rw [EdgeField.named_cons_some hname] at honce hunknown
    obtain ⟨hnot, honce⟩ := List.nodup_cons.1 honce
    refine ⟨next, readField_known hname (hunknown field List.mem_cons_self) hnext hcs, h, honce, ?_⟩
    intro other hother
    -- The field that was set does not come up again.
    have hne : other ≠ field := fun e => hnot (e ▸ hother)
    rw [has_of_set hnext, hunknown other (List.mem_cons_of_mem _ hother)]
    simp [hne]

/-- The fields of an object behind the opening quote of the first name. As many steps as there are
fields suffice. The induction is over the fields behind the first, from any draft in which none of
them is known. -/
theorem readFields_write {name : String} {value : Json} {more : List (String × Json)}
    (h : draft.setAll ((name, value) :: more) = .ok d)
    (hfresh : draft.Fresh ((name, value) :: more)) {fuel : Nat} (hfuel : more.length < fuel)
    (rest : List Char) :
    draft.readFields fuel (name.toList.flatMap Json.escape ++ '"' :: ':' ::
        value.write (Json.writeFields more ('\x7d' :: rest))) = .ok (d, rest) := by
  induction more generalizing draft name value fuel with
  | nil =>
    obtain ⟨fuel, rfl⟩ : ∃ k, fuel = k + 1 := ⟨fuel - 1, by omega⟩
    -- Behind the last value stands the closing brace.
    obtain ⟨next, hread, hset, -⟩ := exists_readField h hfresh (Json.ends_writeFields [] rest)
    cases hset
    rw [readFields, hread, ok_bind]
    show (Json.nextField ('\x7d' :: rest) >>= _) = _
    rw [Json.nextField_brace]
    rfl
  | cons second more ih =>
    obtain ⟨name', value'⟩ := second
    obtain ⟨fuel, rfl⟩ : ∃ k, fuel = k + 1 := ⟨fuel - 1, by omega⟩
    rw [List.length_cons] at hfuel
    obtain ⟨next, hread, hset, hnext⟩ := exists_readField h hfresh
      (Json.ends_writeFields ((name', value') :: more) rest)
    rw [readFields, hread, ok_bind]
    -- The comma leads to the quote of the next name, and from there on it is the same again.
    show (Json.nextField (',' :: '"' :: (name'.toList.flatMap Json.escape ++ '"' :: ':' ::
      value'.write (Json.writeFields more ('\x7d' :: rest)))) >>= _) = _
    rw [Json.nextField_comma, ok_bind]
    simp only [if_true]
    exact ih hset hnext (by omega)

end Draft

/-- An object is read as the edge that it stands for. The draft is blank at the start, and finished
when the brace has closed. -/
theorem readObject_write {fields : List (String × Json)} {edge : Edge}
    (h : ofJson (.obj fields) = .ok edge) (honce : (EdgeField.named fields).Nodup)
    (rest : List Char) :
    ∃ tail, (Json.obj fields).write rest = '\x7b' :: tail ∧ readObject tail = .ok (edge, rest) := by
  obtain ⟨d, hset, hfinish⟩ := exists_of_bind h
  cases fields with
  | nil =>
    -- Without fields there is no edge.
    cases hset
    exact absurd hfinish (by simp [Draft.finish, Draft.blank])
  | cons first more =>
    obtain ⟨name, value⟩ := first
    have hread := Draft.readFields_write hset ⟨honce, fun field _ => by cases field <;> rfl⟩
      (Nat.lt_succ_of_lt (Json.length_lt_field name value more ('\x7d' :: rest))) rest
    refine ⟨_, by rw [Json.write, Json.writeString], ?_⟩
    rw [readObject, Json.firstField, skipSpace_cons (by decide)]
    simp only [ok_bind, if_true]
    rw [hread]
    simp only [ok_bind, hfinish, ofMismatch_ok]
    rfl

/-! ### Arrays -/

namespace Draft

variable {draft d : Draft}

/-- The first item stands behind the bracket. -/
theorem readItems_first (field : EdgeField) (fields : List EdgeField) {c : Char}
    (hc : Json.Starts c) (tail : List Char) :
    draft.readItems true (field :: fields) (c :: tail) = (do
      let (next, rest) ← draft.read field (c :: tail)
      next.readItems false fields rest) := by
  rw [readItems, skipSpace_cons hc.1]
  split
  · next heq => cases heq
  · next heq =>
    cases heq
    exact absurd rfl hc.2.1
  · next heq =>
    cases heq
    rfl

/-- Every other item stands behind a comma. -/
theorem readItems_comma (field : EdgeField) (fields : List EdgeField) {c : Char}
    (hc : Json.Starts c) (tail : List Char) :
    draft.readItems false (field :: fields) (',' :: c :: tail) = (do
      let (next, rest) ← draft.read field (c :: tail)
      next.readItems false fields rest) := by
  rw [readItems, skipSpace_cons (by decide)]
  split
  · next heq => cases heq
  · next heq => exact absurd heq (by simp)
  · next heq =>
    cases heq
    rw [if_neg (by decide), if_pos rfl, skipSpace_cons hc.1]
    split
    · next heq => cases heq
    · next heq =>
      cases heq
      exact absurd rfl hc.2.1
    · rfl

/-- The items behind the first. The closing bracket is read along with them when fields are left,
and it is still ahead when they are used up. An edge has six items at most, so there are no more
values than fields. -/
theorem readItems_write {fields : List EdgeField} {values : List Json}
    (h : draft.setItems fields values = .ok d) (hlength : values.length ≤ fields.length)
    (rest : List Char) :
    ∃ closed, draft.readItems false fields (Json.writeItems values (']' :: rest))
      = .ok (d, closed, if closed then rest else ']' :: rest) := by
  induction values generalizing draft fields with
  | nil =>
    cases fields with
    | nil =>
      -- No field is left to ask for, so the bracket is not looked at.
      cases h
      exact ⟨false, rfl⟩
    | cons field fields =>
      cases h
      refine ⟨true, ?_⟩
      rw [Json.writeItems, readItems, skipSpace_cons (by decide)]
      rfl
  | cons value values ih =>
    cases fields with
    | nil => exact absurd hlength (by simp)
    | cons field fields =>
      obtain ⟨next, hnext, h⟩ := exists_of_bind h
      obtain ⟨closed, hread⟩ := ih h (Nat.le_of_succ_le_succ hlength)
      refine ⟨closed, ?_⟩
      obtain ⟨c, tail, hcs, hc⟩ :=
        Json.exists_cons_of_write value (Json.writeItems values (']' :: rest))
      rw [Json.writeItems, hcs, readItems_comma field fields hc, ← hcs,
        read_reads hnext (Json.ends_writeItems values rest), ok_bind]
      exact hread

end Draft

/-- An array is read as the edge that it stands for. A short array leaves fields open, which have
their defaults when the draft is finished. -/
theorem readArray_write {items : List Json} {edge : Edge} (h : ofJson (.arr items) = .ok edge)
    (rest : List Char) :
    ∃ tail, (Json.arr items).write rest = '[' :: tail ∧ readArray tail = .ok (edge, rest) := by
  obtain ⟨d, hset, h⟩ := exists_of_bind h
  -- The value is taken apart as it was decoded: the items, the draft at the end, their number.
  obtain ⟨found, hfinish, h⟩ := exists_of_bind h
  split at h
  case isFalse => exact absurd h (by simp)
  case isTrue hlength =>
    cases h
    cases items with
    | nil =>
      -- Without items there is no edge.
      cases hset
      exact absurd hfinish (by simp [Draft.finish, Draft.blank])
    | cons value values =>
      refine ⟨_, by rw [Json.write], ?_⟩
      obtain ⟨next, hnext, hset⟩ := exists_of_bind hset
      obtain ⟨closed, hread⟩ :=
        Draft.readItems_write hset (Nat.le_of_succ_le_succ hlength) rest
      obtain ⟨c, tail, hcs, hc⟩ :=
        Json.exists_cons_of_write value (Json.writeItems values (']' :: rest))
      rw [readArray, hcs, EdgeField.all, Draft.readItems_first _ _ hc, ← hcs,
        Draft.read_reads hnext (Json.ends_writeItems values rest), ok_bind]
      simp only
      rw [hread, ok_bind]
      simp only [hfinish, ofMismatch_ok, ok_bind]
      -- A bracket that is still ahead is all that may follow.
      cases closed with
      | true => rfl
      | false =>
        rw [if_neg (by decide), if_neg (by decide), skipSpace_cons (by decide)]
        rfl

/-! ### Edges and lists of edges -/

/-- A value names no field of an edge twice. -/
def NamesOnce : Json → Prop
  | .obj fields => (EdgeField.named fields).Nodup
  | _ => True

/-- The text of a value gives the edge that the value gives. An array names no fields, so it asks
for nothing. -/
theorem reader_reads {value : Json} {edge : Edge} (h : ofJson value = .ok edge)
    (honce : NamesOnce value) : Json.Reader.Reads reader value edge := by
  intro rest _
  cases value with
  | obj fields =>
    obtain ⟨tail, hwrite, hread⟩ := readObject_write h honce rest
    rw [hwrite, reader, skipSpace_cons (by decide)]
    exact hread
  | arr items =>
    obtain ⟨tail, hwrite, hread⟩ := readArray_write h rest
    rw [hwrite, reader, skipSpace_cons (by decide)]
    exact hread
  | null | bool | num | str => exact absurd h (by simp [ofJson])

/-- A list of edges is read edge by edge. The hypothesis is about the values in the list, each of
which may have a form of its own. -/
theorem listReader_reads {values : List Json} {edges : List Edge}
    (h : List.Forall₂ (Json.Reader.Reads reader) values edges) :
    Json.Reader.Reads listReader (.arr values) edges := by
  intro rest _
  obtain ⟨tail, hwrite, hread⟩ := Json.items_write_of_reads h rest
  rw [hwrite, listReader, skipSpace_cons (by decide)]
  exact hread

end Edge

end EdgeGuard
