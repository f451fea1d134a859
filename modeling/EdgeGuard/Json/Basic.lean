import EdgeGuard.Bindings
import EdgeGuard.Number.Basic

/-!
# `EdgeGuard.Json.Basic`: JSON values

A value is one of the six kinds of JSON. An object is the list of its fields in the order
in which they are written; a value that was read has its fields in the order of their names,
without a repeated name (`Json.Ordered`), and `Json.ordered` brings any value into that form.

* `Json.same` is the identity of stored values: `1` and `1.0` are two values, the two zeros
  of the doubles are one.
-/

set_option autoImplicit false

namespace EdgeGuard

/-- A JSON value. -/
inductive Json where
  | null
  | bool (value : Bool)
  | num (value : Number)
  | str (value : String)
  | arr (items : List Json)
  | obj (fields : List (String × Json))
deriving Inhabited

namespace Json

/-! ### Equality -/

mutual

protected def decEq : (a b : Json) → Decidable (a = b)
  | .null, .null => isTrue rfl
  | .bool a, .bool b =>
    if h : a = b then isTrue (h ▸ rfl) else isFalse (by intro e; injection e; contradiction)
  | .num a, .num b =>
    if h : a = b then isTrue (h ▸ rfl) else isFalse (by intro e; injection e; contradiction)
  | .str a, .str b =>
    if h : a = b then isTrue (h ▸ rfl) else isFalse (by intro e; injection e; contradiction)
  | .arr a, .arr b =>
    match Json.decEqItems a b with
    | isTrue h => isTrue (h ▸ rfl)
    | isFalse h => isFalse (by intro e; injection e; contradiction)
  | .obj a, .obj b =>
    match Json.decEqFields a b with
    | isTrue h => isTrue (h ▸ rfl)
    | isFalse h => isFalse (by intro e; injection e; contradiction)
  | .null, .bool _ | .null, .num _ | .null, .str _ | .null, .arr _ | .null, .obj _
  | .bool _, .null | .bool _, .num _ | .bool _, .str _ | .bool _, .arr _ | .bool _, .obj _
  | .num _, .null | .num _, .bool _ | .num _, .str _ | .num _, .arr _ | .num _, .obj _
  | .str _, .null | .str _, .bool _ | .str _, .num _ | .str _, .arr _ | .str _, .obj _
  | .arr _, .null | .arr _, .bool _ | .arr _, .num _ | .arr _, .str _ | .arr _, .obj _
  | .obj _, .null | .obj _, .bool _ | .obj _, .num _ | .obj _, .str _ | .obj _, .arr _ =>
    isFalse (by intro e; injection e)

protected def decEqItems : (a b : List Json) → Decidable (a = b)
  | [], [] => isTrue rfl
  | [], _ :: _ => isFalse (by simp)
  | _ :: _, [] => isFalse (by simp)
  | a :: as, b :: bs =>
    match Json.decEq a b, Json.decEqItems as bs with
    | isTrue h, isTrue h' => isTrue (h ▸ h' ▸ rfl)
    | isFalse h, _ => isFalse (by simp [h])
    | _, isFalse h => isFalse (by simp [h])

protected def decEqFields : (a b : List (String × Json)) → Decidable (a = b)
  | [], [] => isTrue rfl
  | [], _ :: _ => isFalse (by simp)
  | _ :: _, [] => isFalse (by simp)
  | (k, a) :: as, (l, b) :: bs =>
    if hk : k = l then
      match Json.decEq a b, Json.decEqFields as bs with
      | isTrue h, isTrue h' => isTrue (h ▸ h' ▸ hk ▸ rfl)
      | isFalse h, _ => isFalse (by simp [h])
      | _, isFalse h => isFalse (by simp [h])
    else isFalse (by simp [hk])

end

instance : DecidableEq Json := Json.decEq

mutual

/-- Whether two values are the same when stored: numbers are of one kind and of one value,
and objects have the same fields in the same order. -/
def same : Json → Json → Bool
  | .null, .null => true
  | .bool a, .bool b => a == b
  | .num a, .num b => a.same b
  | .str a, .str b => a == b
  | .arr a, .arr b => sameItems a b
  | .obj a, .obj b => sameFields a b
  | _, _ => false

def sameItems : List Json → List Json → Bool
  | [], [] => true
  | a :: as, b :: bs => same a b && sameItems as bs
  | _, _ => false

/-- The fields of two objects are the same when they are the same in each place. -/
def sameFields : List (String × Json) → List (String × Json) → Bool
  | [], [] => true
  | (k, a) :: as, (l, b) :: bs => k == l && same a b && sameFields as bs
  | _, _ => false

end

/-! ### Parts of a value -/

/-- The field of an object with a name. Other values have no fields. -/
def field? : Json → String → Option Json
  | .obj fields, name => Bindings.get? fields name
  | _, _ => none

/-- The text of a string. -/
def str? : Json → Option String
  | .str text => some text
  | _ => none

mutual

/-- How deep arrays and objects nest: zero for a scalar. -/
def depth : Json → Nat
  | .arr items => depthItems items + 1
  | .obj fields => depthFields fields + 1
  | _ => 0

def depthItems : List Json → Nat
  | [] => 0
  | value :: rest => max (depth value) (depthItems rest)

/-- The names of fields take no level, so the deepest value is what counts. -/
def depthFields : List (String × Json) → Nat
  | [] => 0
  | (_, value) :: rest => max (depth value) (depthFields rest)

end

/-! ### The order of fields -/

mutual

/-- The same value with the fields of every object in the order of their names. Of several
fields with one name the last is kept. -/
def ordered : Json → Json
  | .arr items => .arr (orderedItems items)
  | .obj fields => .obj (Bindings.ofList (orderedFields fields))
  | value => value

def orderedItems : List Json → List Json
  | [] => []
  | value :: rest => ordered value :: orderedItems rest

/-- The fields keep their places here. They are sorted when their values are in order. -/
def orderedFields : List (String × Json) → List (String × Json)
  | [] => []
  | (name, value) :: rest => (name, ordered value) :: orderedFields rest

end

mutual

/-- Every object in the value has its fields in the order of their names, each name once. -/
def Ordered : Json → Prop
  | .arr items => OrderedItems items
  | .obj fields => Bindings.Sorted fields ∧ OrderedFields fields
  | _ => True

def OrderedItems : List Json → Prop
  | [] => True
  | value :: rest => Ordered value ∧ OrderedItems rest

/-- The values of the fields are in order. That the fields are is asked by `Ordered` itself. -/
def OrderedFields : List (String × Json) → Prop
  | [] => True
  | (_, value) :: rest => Ordered value ∧ OrderedFields rest

end

end Json

end EdgeGuard
