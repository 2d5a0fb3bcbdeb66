import Oreo.Options

/-!
# Files

A `FileTree` is a working directory with the files below it. Reading a path walks through its
components one by one: each but the last has to be a directory, and the last a file whose
bytes are text. What lies outside the working directory is known to be directories, but not
what is in them.

Paths and names are bounded in bytes. A path is held against its bound, and against the
character that cannot be in one, before the walk begins; a name against its own bound only when
the walk has come to it. So a failure on the way to a name that is too long comes first.
-/

namespace Oreo

/-- Why no text can be read from a path. -/
inductive ReadFailure where
  /-- There is nothing at the path. -/
  | missing
  /-- The path goes through something that is no directory. -/
  | notDirectory
  /-- The path leads to a directory. -/
  | isDirectory
  /-- The path, or a name in it, is longer than one may be. -/
  | tooLong
  /-- The path holds the null character, which ends a path. -/
  | nullInPath
  /-- The file may not be read. -/
  | denied
  /-- The bytes of the file are no text. -/
  | notText
deriving DecidableEq, Repr

/-- The reason as messages give it. -/
def ReadFailure.reason : ReadFailure → String
  | .missing => "No such file or directory (os error 2)"
  | .notDirectory => "Not a directory (os error 20)"
  | .isDirectory => "Is a directory (os error 21)"
  | .tooLong => "File name too long (os error 36)"
  | .nullInPath => "file name contained an unexpected NUL byte"
  | .denied => "Permission denied (os error 13)"
  | .notText => "stream did not contain valid UTF-8"

/-- A file: the names of the directories that lead to it and its own, and its bytes. -/
structure StoredFile where
  /-- The names on the way from the working directory. -/
  path : List String
  /-- The content. -/
  bytes : ByteArray

/-- The file at a slash-separated path. -/
def StoredFile.ofPath (path : String) (bytes : ByteArray) : StoredFile where
  path := (path.splitOn "/").filter fun part => part != "" && part != "."
  bytes := bytes

/-- A working directory: the files below it. -/
structure FileTree where
  /-- The files. Of several at one path, the first counts. -/
  files : List StoredFile

namespace FileTree

/-- The most bytes in one name. -/
def maxNameSize : Nat := 255

/-- The most bytes in a path. -/
def maxPathSize : Nat := 4095

/-- Where a walk has come to. -/
inductive Place where
  /-- A directory, by the names on the way from the working directory. -/
  | directory (path : List String)
  /-- Some directory that is not below the working directory. -/
  | outside
  /-- A file with its content. -/
  | file (bytes : ByteArray)

/-- What lies at the given names below the working directory. -/
def find? (tree : FileTree) (path : List String) : Option Place :=
  match tree.files.find? (·.path == path) with
  | some found => some (.file found.bytes)
  | none =>
    if tree.files.any fun file => path.isPrefixOf file.path then some (.directory path)
    else none

/-- Goes on from a place by one component of a path. -/
def enter (tree : FileTree) (place : Place) (part : String) : Except ReadFailure Place :=
  match place with
  | .file _ => .error .notDirectory
  | .outside =>
    if part = "" ∨ part = "." ∨ part = ".." then .ok .outside
    else if maxNameSize < part.utf8ByteSize then .error .tooLong
    else .error .missing
  | .directory path =>
    if part = "" ∨ part = "." then .ok (.directory path)
    else if part = ".." then
      if path.isEmpty then .ok .outside else .ok (.directory path.dropLast)
    else if maxNameSize < part.utf8ByteSize then .error .tooLong
    else
      match tree.find? (path ++ [part]) with
      | some place => .ok place
      | none => .error .missing

/-- Walks along a slash-separated path. -/
def walk (tree : FileTree) (path : String) : Except ReadFailure Place :=
  if path.toList.contains '\x00' then .error .nullInPath
  else if path = "" then .error .missing
  else if maxPathSize < path.utf8ByteSize then .error .tooLong
  else
    let start := if path.startsWith "/" then Place.outside else .directory []
    (path.splitOn "/").foldlM tree.enter start

/-- The text that bytes are in UTF-8. -/
def decode (bytes : ByteArray) : Except ReadFailure String :=
  match String.fromUTF8? bytes with
  | some text => .ok text
  | none => .error .notText

/-- The text of the file at a path. -/
def read (tree : FileTree) (path : String) : Except ReadFailure String := do
  match ← tree.walk path with
  | .file bytes => decode bytes
  | .directory _ => .error .isDirectory
  | .outside => .error .isDirectory

end FileTree

end Oreo
