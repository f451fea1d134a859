import EdgeGuard.Text.Blank
import EdgeGuard.Text.Search

/-!
# `EdgeGuard.Document.Format`: the format that the name of a file stands for

The format of a document is told by the extension of its path: what follows the last dot of the last
part of the path. A part that only starts with a dot has no extension, and parts that are empty
or a single dot do not count.
-/

set_option autoImplicit false

namespace EdgeGuard

/-- The parts of a path, without those that are empty or a single dot. -/
def pathParts (path : String) : List String :=
  ((Text.splitAt '/' path.toList).map String.ofList).filter fun part => part != "" && part != "."

/-- The part of a path that names a file. -/
def fileName? (path : String) : Option String :=
  (pathParts path).getLast?.filter (· != "..")

/-- What follows the last dot of a file's name, if something stands before that dot. -/
def extension? (path : String) : Option String :=
  match fileName? path with
  | none => none
  | some name =>
    let reversed := name.toList.reverse
    let before := (reversed.dropWhile (· != '.')).drop 1
    if before.isEmpty then none
    else some (String.ofList (reversed.takeWhile (· != '.')).reverse)

/-- A format of documents. -/
inductive Format where
  | json
  | yaml
deriving DecidableEq, Repr

namespace Format

/-- The name of a format in the log. -/
def name : Format → String
  | .json => "Json"
  | .yaml => "Yaml"

/-- The format that a path stands for. The case of letters does not matter. -/
def ofPath? (path : String) : Option Format :=
  match (extension? path).map Text.lowerAscii with
  | some "json" => some .json
  | some "yaml" => some .yaml
  | some "yml" => some .yaml
  | _ => none

end Format

end EdgeGuard
