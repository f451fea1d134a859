import EdgeGuard.Json.Basic
import EdgeGuard.Text.Search

/-!
# `EdgeGuard.Eval.Compare`: how conditions compare values

Values of two kinds are never equal. Numbers are equal when they are the same double, arrays
when they have equal items, objects when they have the same names with equal values. Numbers
are ordered by value and strings by code points; nothing else is ordered.

* `Json.truthy` is the truth value that a value counts as.
* `Json.equals` is the equality of conditions.
* `Json.order?` is their order.
-/

set_option autoImplicit false

namespace EdgeGuard.Json

/-- The truth value that a value counts as: null, false, zero and everything empty are
false. -/
def truthy : Json → Bool
  | .null => false
  | .bool value => value
  | .num value => value.scaled != 0
  | .str text => text != ""
  | .arr items => !items.isEmpty
  | .obj fields => !fields.isEmpty

mutual

/-- Whether a condition takes two values to be equal. -/
def equals : Json → Json → Bool
  | .null, .null => true
  | .bool a, .bool b => a == b
  | .num a, .num b => a.scaled == b.scaled
  | .str a, .str b => a == b
  | .arr a, .arr b => equalItems a b
  | .obj a, .obj b => a.length == b.length && equalFields a b
  | _, _ => false

/-- Whether two lists have equal items. -/
def equalItems : List Json → List Json → Bool
  | [], [] => true
  | a :: as, b :: bs => equals a b && equalItems as bs
  | _, _ => false

/-- Whether every field of the first list has an equal one in the second. -/
def equalFields : List (String × Json) → List (String × Json) → Bool
  | [], _ => true
  | (name, a) :: rest, others =>
    (match Bindings.get? others name with
      | some b => equals a b
      | none => false) && equalFields rest others

end

/-- The order of two values: numbers by value, strings by code points, else none. -/
def order? : Json → Json → Option Ordering
  | .num a, .num b => some (compareOfLessAndEq a.scaled b.scaled)
  | .str a, .str b => some (compareOfLessAndEq a b)
  | _, _ => none

/-- Whether two values are ordered in an accepted way. -/
def orderedBy (accept : Ordering → Bool) (a b : Json) : Bool :=
  match order? a b with
  | some ordering => accept ordering
  | none => false

/-- Whether both values are strings in a relation. -/
def textsRelate (relation : List Char → List Char → Bool) : Json → Json → Bool
  | .str a, .str b => relation a.toList b.toList
  | _, _ => false

/-- Whether an item is equal to one in a list. Nothing when the second value is no list. -/
def member? (item : Json) : Json → Option Bool
  | .arr items => some (items.any fun value => equals value item)
  | _ => none

end EdgeGuard.Json
