import EdgeGuard.Document.Format

/-!
# `EdgeGuard.Document.Folder`: reading files by their paths

A reader of files gives the bytes of a file or why they cannot be had. A folder that is held in
memory is one: its files are known by their paths inside it.
-/

set_option autoImplicit false

namespace EdgeGuard

/-- Why a file cannot be read. -/
inductive FileFault where
  | notFound
  | isDirectory
  | notDirectory
  /-- The path holds a zero character. -/
  | zeroInPath
  /-- The path or a part of it is longer than any there can be. -/
  | tooLong
  /-- The bytes are no text. -/
  | notText
  /-- Any other reason. -/
  | other
deriving DecidableEq, Repr

/-- The words for a file that cannot be read. -/
def FileFault.message : FileFault → String
  | .notFound => "No such file"
  | .isDirectory => "A directory where a file is expected"
  | .notDirectory => "A file where a directory is expected"
  | .zeroInPath => "A zero character in a path"
  | .tooLong => "A path that is too long"
  | .notText => "The file is no UTF-8 text"
  | .other => "The file cannot be read"

/-- Gives the bytes of a file. -/
abbrev FileReader := String → Except FileFault ByteArray

/-- The text of a file. -/
def FileReader.text (read : FileReader) (path : String) : Except FileFault String :=
  match read path with
  | .error fault => .error fault
  | .ok bytes =>
    match String.fromUTF8? bytes with
    | some text => .ok text
    | none => .error .notText

/-- What is in a folder under a path. -/
inductive Entry where
  | file (bytes : ByteArray)
  | directory

/-- A folder in memory. -/
structure Folder where
  entries : List (String × Entry)

namespace Folder

/-- What is under the parts of a path. The parts before a file's name are directories. -/
def entry? (folder : Folder) (parts : List String) : Option Entry :=
  if parts.isEmpty then some .directory
  else
    match folder.entries.find? fun pair => pathParts pair.1 == parts with
    | some pair => some pair.2
    | none =>
      if folder.entries.any fun pair => parts.isPrefixOf (pathParts pair.1) then some .directory
      else none

/-- How many bytes a part of a path may take. -/
def partLimit : Nat := 255

/-- How many bytes a path may take. -/
def pathLimit : Nat := 4095

/-- Walks down the parts of a path from the directory at a place. -/
def walk (folder : Folder) : (place : List String) → List String → Except FileFault Entry
  | place, [] =>
    match folder.entry? place with
    | some entry => .ok entry
    | none => .error .notFound
  | place, part :: rest =>
    match folder.entry? place with
    | none => .error .notFound
    | some (.file _) => .error .notDirectory
    | some .directory =>
      -- The folder has nothing above its top.
      if part == ".." then
        if place.isEmpty then .error .notFound else folder.walk place.dropLast rest
      else if partLimit < part.utf8ByteSize then .error .tooLong
      else folder.walk (place ++ [part]) rest

/-- Whether a path asks for a directory: it ends in a slash or a single dot. -/
def asksForDirectory (path : String) : Bool :=
  match (Text.splitAt '/' path.toList).getLast? with
  | some last => last == [] || last == ['.']
  | none => true

/-- Reads the files of a folder by their paths inside it. -/
def reader (folder : Folder) : FileReader := fun path =>
  if path.toList.contains '\x00' then .error .zeroInPath
  else if pathLimit < path.utf8ByteSize then .error .tooLong
  else if path == "" || path.toList.head? == some '/' then .error .notFound
  else
    match folder.walk [] (pathParts path) with
    | .error fault => .error fault
    | .ok .directory => .error .isDirectory
    | .ok (.file bytes) => if asksForDirectory path then .error .notDirectory else .ok bytes

end Folder

end EdgeGuard
