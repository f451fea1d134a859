import EdgeGuard.Json.Write
import EdgeGuard.Text.Quoted

/-!
# `EdgeGuard.Json.Mismatch`: why a JSON value does not have the expected shape

A value that is well formed as JSON can still be no edge, no list of edges, no set of
variables or no tag. `Json.Mismatch` holds the cause and `Json.Mismatch.message` its text.
-/

set_option autoImplicit false

namespace EdgeGuard.Json

/-- What was found where something else was expected. -/
inductive Found where
  | null
  | bool (value : Bool)
  | num (value : Number)
  | str (text : String)
  | sequence
  | map

/-- The description of a value that was found. -/
def found : Json → Found
  | .null => .null
  | .bool value => .bool value
  | .num value => .num value
  | .str text => .str text
  | .arr _ => .sequence
  | .obj _ => .map

/-- The words for what was found. -/
def Found.text : Found → String
  | .null => "null"
  | .bool true => "boolean `true`"
  | .bool false => "boolean `false`"
  | .num (.int value h) =>
    "integer `" ++ String.ofList (Number.int value h).chars ++ "`"
  | .num (.float value) =>
    "floating point `" ++ String.ofList (Number.float value).chars ++ "`"
  | .str text => "string " ++ Text.quoted text
  | .sequence => "sequence"
  | .map => "map"

/-- What a typed reader asks for. -/
inductive Expected where
  | string
  | boolean
  | unit
  | sequence
  | map
  | edge
  | tag
  | tagName

/-- The words for what was expected. -/
def Expected.text : Expected → String
  | .string => "a string"
  | .boolean => "a boolean"
  | .unit => "unit"
  | .sequence => "a sequence"
  | .map => "a map"
  | .edge => "struct FlowEdge"
  | .tag => "string or map"
  | .tagName => "variant identifier"

/-- Why a value does not have the expected shape. -/
inductive Mismatch where
  /-- A value of another kind. -/
  | kind (found : Found) (expected : Expected)
  /-- A field that has to be there is not. -/
  | missingField (name : String)
  /-- A field is written twice. -/
  | duplicateField (name : String)
  /-- A tag is none of the known ones. -/
  | unknownTag (found : String) (known : List String)
  /-- An object stands for a tag but has no field or several. -/
  | notOneField
  /-- An edge is written as an array that ends before the required items. -/
  | tooFewItems (count : Nat)
  /-- An edge is written as an array with items after the last one. -/
  | tooManyItems (count : Nat)

/-- The known tags as a choice: two are joined by a word, more follow a heading. -/
def tagChoice : List String → String
  | [] => "there are no variants"
  | [a] => "expected `" ++ a ++ "`"
  | [a, b] => "expected `" ++ a ++ "` or `" ++ b ++ "`"
  | tags => "expected one of " ++ ", ".intercalate (tags.map fun tag => "`" ++ tag ++ "`")

/-- The text of a mismatch. -/
def Mismatch.message : Mismatch → String
  | .kind found expected => "invalid type: " ++ found.text ++ ", expected " ++ expected.text
  | .missingField name => "missing field `" ++ name ++ "`"
  | .duplicateField name => "duplicate field `" ++ name ++ "`"
  | .unknownTag found known =>
    "unknown variant `" ++ found ++ "`, " ++ tagChoice known
  | .notOneField => "invalid value: map, expected map with a single key"
  | .tooFewItems count =>
    "invalid length " ++ toString count ++ ", expected struct FlowEdge with 6 elements"
  | .tooManyItems count =>
    "invalid length " ++ toString count ++ ", expected fewer elements in array"

end EdgeGuard.Json
