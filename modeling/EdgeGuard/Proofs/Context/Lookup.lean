import EdgeGuard.Context.Basic

/-!
# `EdgeGuard.Proofs.Context.Lookup`: what a name leads to after any history

A context is made at once from a table of variables or from a stored value, and then changed step
by step. A `History` says how. What a name leads to can be read off the history, without the
context:

* A name that was bound leads to the value last bound to it (`History.LastBound`).
* Another name that has a dot is a path. Its parts are found by splitting at every dot
  (`Context.PartsOf`), the first part is a name that was bound, and the others are the keys of the
  objects on the way down (`Json.Leads`).

Each change keeps what is bound under all names but one (`Change.get?_apply`), so the values of the
context are the last bound ones after every history (`get?_context_eq_some_iff`).

* `path_eq_cons_iff`: the parts of a name are what it is joined from.
* `descend_eq_iff_leads`: the way down, with every place where it ends early.
* `lookup_eq_iff_answers`: what a lookup gives after a history.
-/

set_option autoImplicit false

namespace EdgeGuard

/-! ### The parts of a name -/

namespace Text

/-- The parts between separators are those of the library. -/
theorem splitAt_eq_splitOn {α : Type} [DecidableEq α] (separator : α) (cs : List α) :
    splitAt separator cs = cs.splitOn separator := by
  induction cs with
  | nil => rfl
  | cons c cs ih =>
    rw [splitAt, ih, List.splitOn_cons_eq_if_modifyHead]
    -- The list of parts behind the first character is not empty, so the last case is not reached.
    cases hparts : cs.splitOn separator with
    | nil => exact absurd hparts (List.splitOn_ne_nil separator cs)
    | cons part parts =>
      by_cases hc : c = separator
      · simp [hc]
      · simp [hc]

/-- No separator is left in a part. So the split is the finest one, and a part cannot be split
again. -/
theorem not_mem_of_mem_splitAt {α : Type} [DecidableEq α] {separator : α} {cs part : List α}
    (h : part ∈ splitAt separator cs) : separator ∉ part := by
  induction cs generalizing part with
  | nil =>
    have hpart : part = [] := by simpa [splitAt] using h
    simp [hpart]
  | cons c cs ih =>
    rw [splitAt] at h
    cases hparts : splitAt separator cs with
    | nil => exact absurd hparts (splitAt_ne_nil separator cs)
    | cons first others =>
      rw [hparts] at h ih
      by_cases hc : c = separator
      · -- The character is a separator, and an empty part stands in front of it.
        simp only [if_pos hc, List.mem_cons] at h
        rcases h with rfl | h
        · exact List.not_mem_nil
        · exact ih (List.mem_cons.2 h)
      · -- The character belongs to the first part.
        simp only [if_neg hc, List.mem_cons] at h
        rcases h with rfl | h
        · have hfirst := ih List.mem_cons_self
          simp [hfirst, Ne.symm hc]
        · exact ih (List.mem_cons_of_mem _ h)

end Text

namespace Context

/-- The parts of a name, split at every dot: joined by dots they are the name, and none of them has
a dot. Parts may be empty. -/
structure PartsOf (name first : String) (others : List String) : Prop where
  joined : ".".intercalate (first :: others) = name
  undotted : ∀ part ∈ first :: others, '.' ∉ part.toList

/-- The parts of a name are what it is joined from. Joining and splitting undo each other, also
where a part is empty. -/
theorem path_eq_cons_iff (name first : String) (others : List String) :
    path name = first :: others ↔ PartsOf name first others := by
  have hdot : ".".toList = ['.'] := rfl
  constructor
  · intro h
    have hparts : (path name).map String.toList = Text.splitAt '.' name.toList := by
      simp [path, Function.comp_def]
    constructor
    · -- Both are laws of the library about lists of characters, so texts are brought to lists
      -- first.
      rw [← String.toList_inj, String.toList_intercalate, ← h, hparts, Text.splitAt_eq_splitOn,
        hdot]
      exact List.intercalate_splitOn '.'
    · intro part hmem
      rw [← h] at hmem
      have hchars : part.toList ∈ Text.splitAt '.' name.toList := by
        rw [← hparts]
        exact List.mem_map_of_mem hmem
      exact Text.not_mem_of_mem_splitAt hchars
  · rintro ⟨rfl, hundotted⟩
    have hchars : ∀ cs ∈ (first :: others).map String.toList, '.' ∉ cs := by
      intro cs hmem
      obtain ⟨part, hpart, rfl⟩ := List.mem_map.1 hmem
      exact hundotted part hpart
    rw [path, Text.splitAt_eq_splitOn, String.toList_intercalate, hdot,
      List.splitOn_intercalate '.' hchars (by simp), List.map_map]
    simp [Function.comp_def]

/-- Every name has a first part. -/
theorem exists_partsOf (name : String) : ∃ first others, PartsOf name first others := by
  cases h : path name with
  | nil => exact absurd (List.map_eq_nil_iff.1 h) (Text.splitAt_ne_nil '.' name.toList)
  | cons first others => exact ⟨first, others, (path_eq_cons_iff name first others).1 h⟩

variable {σ : Type} {context : Context σ} {query : String}

/-- A name that is bound is found as it is. -/
theorem lookup_of_bound {value : Json} (h : context.values.get? query = some value) :
    context.lookup query = some value := by
  simp only [lookup, h]

/-- Another name with a dot is found as the path that it is. The name as a whole comes first, so a
variable with a dot in its name hides the path. -/
theorem lookup_of_parts {first : String} {others : List String}
    (h : context.values.get? query = none) (dotted : '.' ∈ query.toList)
    (parts : PartsOf query first others) :
    context.lookup query
      = (context.values.get? first).bind fun value => value.descend others := by
  have hpath := (path_eq_cons_iff query first others).2 parts
  simp only [lookup, h, if_pos dotted, hpath, atPath?]

/-- A name without a dot is not found in another way. -/
theorem lookup_of_undotted (h : context.values.get? query = none)
    (undotted : '.' ∉ query.toList) : context.lookup query = none := by
  simp only [lookup, h, if_neg undotted]

end Context

/-! ### The way down -/

/-- Where the way down a list of keys leads: to a value, or to nothing as soon as a key is asked of
something that is no object, or of an object without it. -/
inductive Json.Leads : Json → List String → Option Json → Prop
  | here (value : Json) : Leads value [] (some value)
  | field {fields : List (String × Json)} {key : String} {inner : Json} {keys : List String}
      {result : Option Json} (hfield : Bindings.get? fields key = some inner)
      (h : Leads inner keys result) : Leads (.obj fields) (key :: keys) result
  | absent {fields : List (String × Json)} {key : String} (keys : List String)
      (hfield : Bindings.get? fields key = none) : Leads (.obj fields) (key :: keys) none
  | noObject {value : Json} (key : String) (keys : List String)
      (h : ∀ fields, value ≠ .obj fields) : Leads value (key :: keys) none

namespace Json

/-- The way down leads to what `descend` gives. The induction is over the keys with the value
general, since each key goes on from another value. -/
theorem leads_descend (value : Json) (keys : List String) :
    value.Leads keys (value.descend keys) := by
  induction keys generalizing value with
  | nil => exact .here value
  | cons key keys ih =>
    rw [descend]
    cases value with
    | obj fields =>
      rw [field?]
      cases hfield : Bindings.get? fields key with
      | none => exact .absent keys hfield
      | some inner => exact .field hfield (ih inner)
    | _ => exact .noObject key keys (by simp)

/-- The way down leads to one result. The relation has one constructor for a step and one for each
way to end, so a statement with it names them all. -/
theorem descend_eq_iff_leads (value : Json) (keys : List String) (result : Option Json) :
    value.descend keys = result ↔ value.Leads keys result := by
  constructor
  · rintro rfl
    exact leads_descend value keys
  · intro h
    induction h with
    | here value => rfl
    | field hfield _ ih =>
      rw [descend, field?, hfield]
      exact ih
    | absent keys hfield => rw [descend, field?, hfield]
    | @noObject value key keys h =>
      have hnone : value.field? key = none := by
        cases value with
        | obj fields => exact absurd rfl (h fields)
        | _ => rfl
      rw [descend, hnone]

end Json

/-! ### Histories -/

namespace Context

variable {σ : Type}

/-- What a context is made from at once. -/
inductive Origin where
  | nothing
  | table (values : Bindings Json)
  | stored (value : Json)

/-- A change of a context. -/
inductive Change (σ : Type) where
  | bind (name : String) (value : Json)
  | register (name : String) (function : Callable σ)

/-- How a context came about. -/
structure History (σ : Type) where
  origin : Origin
  changes : List (Change σ)

namespace Origin

/-- The context at its start. -/
def context : Origin → Context σ
  | .nothing => empty
  | .table values => ofVariables values
  | .stored value => (ofJson value).1

/-- The value that is bound to a name at the start. A stored value that is no object binds none. -/
def bound? : Origin → String → Option Json
  | .nothing, _ => none
  | .table values, name => values.get? name
  | .stored (.obj fields), name => Bindings.get? fields name
  | .stored _, _ => none

/-- The variables of a context at its start are the ones bound at the start. -/
theorem get?_context (origin : Origin) (name : String) :
    (origin.context : Context σ).values.get? name = origin.bound? name := by
  cases origin with
  | nothing => rfl
  | table values => rfl
  | stored value => cases value <;> rfl

end Origin

namespace Change

/-- The context after a change. -/
def apply (context : Context σ) : Change σ → Context σ
  | .bind name value => context.setVariable name value
  | .register name function => context.setFunction name function

/-- The value that a change binds to a name. -/
def bound? : Change σ → String → Option Json
  | .bind key value, name => if key = name then some value else none
  | .register .., _ => none

/-- One of the changes binds a value to a name, and no later one binds the name. -/
def LastBinds (changes : List (Change σ)) (name : String) (value : Json) : Prop :=
  ∃ before change after, changes = before ++ change :: after ∧ change.bound? name = some value ∧
    ∀ later ∈ after, later.bound? name = none

/-- After a change a name has the value that the change binds to it, or the one that it had. -/
theorem get?_apply (context : Context σ) (change : Change σ) (name : String) :
    (change.apply context).values.get? name
      = (change.bound? name).or (context.values.get? name) := by
  cases change with
  | bind key value =>
    show (context.setVariable key value).values.get? name = _
    rw [get?_setVariable, bound?]
    by_cases hkey : key = name
    · simp [hkey]
    · simp [hkey, Ne.symm hkey]
  | register key function => rfl

/-- The change that binds a name last is one of the later changes, or it is the first one. It is
what an induction over the changes needs, which meets the first change first. -/
theorem lastBinds_cons_iff (change : Change σ) (rest : List (Change σ)) (name : String)
    (value : Json) :
    LastBinds (change :: rest) name value ↔ LastBinds rest name value ∨
      (change.bound? name = some value ∧ ∀ later ∈ rest, later.bound? name = none) := by
  constructor
  · rintro ⟨before, last, after, hsplit, hbinds, hlater⟩
    cases before with
    | nil =>
      obtain ⟨rfl, rfl⟩ := List.cons.inj hsplit
      exact .inr ⟨hbinds, hlater⟩
    | cons first before =>
      obtain ⟨-, hrest⟩ := List.cons.inj hsplit
      exact .inl ⟨before, last, after, hrest, hbinds, hlater⟩
  · rintro (⟨before, last, after, rfl, hbinds, hlater⟩ | ⟨hbinds, hlater⟩)
    · exact ⟨change :: before, last, after, rfl, hbinds, hlater⟩
    · exact ⟨[], change, rest, rfl, hbinds, hlater⟩

/-- After some changes a name has the value that was bound to it last, or the one that it had when
no change binds it. Registering a function binds no name, so such changes only pass by. -/
theorem get?_foldl_apply_eq_some_iff (context : Context σ) (changes : List (Change σ))
    (name : String) (value : Json) :
    (changes.foldl apply context).values.get? name = some value ↔
      LastBinds changes name value ∨
        (context.values.get? name = some value ∧ ∀ change ∈ changes, change.bound? name = none) := by
  induction changes generalizing context with
  | nil => simp [LastBinds]
  | cons change rest ih =>
    -- The first change counts only where no later one binds the name, which is what
    -- `lastBinds_cons_iff` says of it.
    rw [List.foldl_cons, ih, get?_apply, lastBinds_cons_iff, List.forall_mem_cons]
    cases change.bound? name with
    | none => simp
    | some bound => simp

end Change

namespace History

/-- The context after all changes. -/
def context (history : History σ) : Context σ :=
  history.changes.foldl Change.apply history.origin.context

/-- The value that was last bound to a name, by a change or at the start. -/
inductive LastBound (history : History σ) (name : String) (value : Json) : Prop
  | changed (h : Change.LastBinds history.changes name value)
  | initial (h : history.origin.bound? name = some value)
      (never : ∀ change ∈ history.changes, change.bound? name = none)

/-- No value was ever bound to a name. -/
def Unbound (history : History σ) (name : String) : Prop := ∀ value, ¬ history.LastBound name value

/-- What a name leads to after a history. -/
inductive Answers (history : History σ) (query : String) : Option Json → Prop
  /-- The name itself was bound. -/
  | exact {value : Json} (bound : history.LastBound query value) : Answers history query (some value)
  /-- The name is a path, and its first part was bound. -/
  | path {first : String} {others : List String} {value : Json} {result : Option Json}
      (unbound : history.Unbound query) (dotted : '.' ∈ query.toList)
      (parts : PartsOf query first others) (bound : history.LastBound first value)
      (leads : value.Leads others result) : Answers history query result
  /-- The name is a path, and its first part was never bound. -/
  | nowhere {first : String} {others : List String} (unbound : history.Unbound query)
      (dotted : '.' ∈ query.toList) (parts : PartsOf query first others)
      (unboundFirst : history.Unbound first) : Answers history query none
  /-- The name is no path. -/
  | plain (unbound : history.Unbound query) (undotted : '.' ∉ query.toList) :
      Answers history query none

/-- The variables of the context have the values that were last bound to them. -/
theorem get?_context_eq_some_iff (history : History σ) (name : String) (value : Json) :
    history.context.values.get? name = some value ↔ history.LastBound name value := by
  rw [context, Change.get?_foldl_apply_eq_some_iff, Origin.get?_context]
  constructor
  · rintro (h | ⟨h, never⟩)
    · exact .changed h
    · exact .initial h never
  · rintro (h | ⟨h, never⟩)
    · exact .inl h
    · exact .inr ⟨h, never⟩

/-- A name without a variable of the context was never bound. -/
theorem get?_context_eq_none_iff (history : History σ) (name : String) :
    history.context.values.get? name = none ↔ history.Unbound name := by
  rw [Option.eq_none_iff_forall_ne_some]
  exact forall_congr' fun value => not_congr (history.get?_context_eq_some_iff name value)

/-- What a lookup gives is what the name leads to. The cases are those of the lookup, and each of
them gives one constructor. -/
theorem answers_lookup (history : History σ) (query : String) :
    history.Answers query (history.context.lookup query) := by
  cases hquery : history.context.values.get? query with
  | some value =>
    rw [lookup_of_bound hquery]
    exact .exact ((history.get?_context_eq_some_iff query value).1 hquery)
  | none =>
    have unbound := (history.get?_context_eq_none_iff query).1 hquery
    by_cases dotted : '.' ∈ query.toList
    · obtain ⟨first, others, parts⟩ := exists_partsOf query
      rw [lookup_of_parts hquery dotted parts]
      cases hfirst : history.context.values.get? first with
      | none =>
        exact .nowhere unbound dotted parts ((history.get?_context_eq_none_iff first).1 hfirst)
      | some value =>
        have bound := (history.get?_context_eq_some_iff first value).1 hfirst
        exact .path unbound dotted parts bound (Json.leads_descend value others)
    · rw [lookup_of_undotted hquery dotted]
      exact .plain unbound dotted

/-- **What a name leads to after any history.** Let a context be made from nothing, from a table of
variables or from a stored value, and let variables be bound and functions be registered in any
order, also several times under one name.

* A name that was bound leads to the value that was last bound to it.
* Another name with a dot is split at every dot, into parts that may be empty. It leads from the
  value last bound to the first part down the keys that the other parts are. It leads to nothing
  when the first part was never bound, at a value that is no object, and at an object without the
  key.
* Any other name leads to nothing. -/
theorem lookup_eq_iff_answers (history : History σ) (query : String) (result : Option Json) :
    history.context.lookup query = result ↔ history.Answers query result := by
  constructor
  · rintro rfl
    exact history.answers_lookup query
  · -- Each way in which a name leads to something is a way in which a lookup ends.
    intro h
    cases h with
    | exact bound => exact lookup_of_bound ((history.get?_context_eq_some_iff query _).2 bound)
    | @path first others value result unbound dotted parts bound leads =>
      have hquery := (history.get?_context_eq_none_iff query).2 unbound
      have hfirst := (history.get?_context_eq_some_iff first value).2 bound
      rw [lookup_of_parts hquery dotted parts, hfirst]
      exact (value.descend_eq_iff_leads others result).2 leads
    | @nowhere first others unbound dotted parts unboundFirst =>
      have hquery := (history.get?_context_eq_none_iff query).2 unbound
      have hfirst := (history.get?_context_eq_none_iff first).2 unboundFirst
      rw [lookup_of_parts hquery dotted parts, hfirst]
      rfl
    | plain unbound undotted =>
      exact lookup_of_undotted ((history.get?_context_eq_none_iff query).2 unbound) undotted

-- An empty part is a key like any other. A name that is bound hides the path that it is, and a new
-- value hides what the old one had below.
example :
    let device := Json.obj [("", .obj [("b", .bool true)]), ("x", .null)]
    let history : History Unit := ⟨.stored (.obj [("a", device), ("c", .obj [("0", .null)])]),
      [.bind "a.x" (.str "new"), .bind "c" (.arr [.null])]⟩
    ["a..b", "a.x", "a.x.", "c.0", "c", "x"].map history.context.lookup
      = [some (.bool true), some (.str "new"), none, none, some (.arr [.null]), none] := by
  decide

end History

end Context

end EdgeGuard
