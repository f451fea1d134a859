import EdgeGuard.CommandLine

/-!
# `EdgeGuard.Main`: the program

Reads the files that a command names and the variables of the environment that it asks about, and
leaves the rest to `CommandLine.run`.
-/

set_option autoImplicit false

namespace EdgeGuard

/-- The fault that stands for a failed reading of a file. -/
def faultOf : IO.Error → FileFault
  | .noFileOrDirectory .. => .notFound
  | .inappropriateType .. => .isDirectory
  | _ => .other

/-- Reads a file. -/
def readFile (path : String) : IO (Except FileFault ByteArray) := do
  try
    return .ok (← IO.FS.readBinFile path)
  catch error =>
    return .error (faultOf error)

/-- Reads the first file of a name in the current directory and those above it, `depth` of them at
most. -/
def readAbove (name : String) : (depth : Nat) → IO (Except FileFault ByteArray)
  | 0 => return .error .notFound
  | depth + 1 => do
    match ← readFile name with
    | .ok bytes => return .ok bytes
    | .error _ => readAbove ("../" ++ name) depth

/-- The directories above the current one that are searched for a file. -/
def searchDepth : Nat := 64

/-- The values of those variables of the environment that are set. -/
def readVariables (names : List String) : IO EnvFile.Environment :=
  names.filterMapM fun name => do
    return (← IO.getEnv name).map fun text => (name, text)

/-- Runs a command on the files of the system. -/
def runCommand (arguments : List String) : IO CommandLine.Ending := do
  let added ← readAbove CommandLine.environmentFile searchDepth
  let asked :=
    match added with
    | .ok bytes => EnvFile.names bytes
    | .error _ => []
  let environment ← readVariables (Settings.localeKey :: asked)
  let paths := ((CommandLine.parse arguments).map CommandLine.Command.files).getD []
  let files ← paths.mapM fun path => return (path, ← readFile path)
  let read : FileReader := fun path =>
    if path == CommandLine.environmentFile then added
    else (files.lookup path).getD (.error .notFound)
  return CommandLine.run arguments environment read

end EdgeGuard

/-- Runs the program with the arguments of its command line. -/
def main (arguments : List String) : IO UInt32 := do
  let ending ← EdgeGuard.runCommand arguments
  IO.print ending.text
  ending.complaints.forM fun line => IO.eprintln line
  return ending.code.toUInt32
