import Gridwright.Text.Pieces

/-!
# File trees

What the program learns about a path when it looks there, and a file tree in
memory that answers such questions as a disk does.  With it the whole command line
is a function, which can be run and reasoned about without a disk.
-/

namespace Gridwright

/-- What is found at a path. -/
inductive FileStatus where
  /-- A file with this content. -/
  | file (content : ByteArray)
  /-- A directory. -/
  | directory
  /-- Nothing. -/
  | missing
  /-- Nothing, because a part of the path that should be a directory is a file. -/
  | notDirectory
  /-- Nothing, because the path or a name in it is longer than any that there can be. -/
  | nameTooLong
  /-- Nothing, because the path holds a NUL, which no name can. -/
  | nulInName
  /-- Something that may not be read, for the given reason. -/
  | refused (reason : String)

def FileStatus.isFile : FileStatus → Bool
  | .file _ => true
  | _ => false

/-- The content that is found, or why there is none. -/
def FileStatus.content : FileStatus → Except String ByteArray
  | .file content => .ok content
  | .directory => .error "Is a directory (os error 21)"
  | .missing => .error "No such file or directory (os error 2)"
  | .notDirectory => .error "Not a directory (os error 20)"
  | .nameTooLong => .error "File name too long (os error 36)"
  | .nulInName => .error "file name contained an unexpected NUL byte"
  | .refused reason => .error reason

/-! ### Paths -/

def pathParts (path : String) : List String :=
  (Text.pieces (· == '/') path.toList).map String.ofList

/-- A name inside a directory. -/
def joinPath (directory name : String) : String :=
  match directory.toList.getLast? with
  | none => name
  | some last => if last = '/' then directory ++ name else directory ++ "/" ++ name

/-- The most bytes of UTF-8 that a name can have. -/
def maxNameBytes : Nat := 255

/-- The most bytes of UTF-8 that a path can have. -/
def maxPathBytes : Nat := 4095

/-! ### Trees -/

/-- Files and directories by the names that lead to them from the root.  A
directory need not be listed if something inside it is. -/
structure FileTree where
  entries : List (List String × Option ByteArray) := []

namespace FileTree

/-- What a list of names leads to. -/
def lookUp (tree : FileTree) (names : List String) : FileStatus :=
  match tree.entries.find? (·.1 = names) with
  | some (_, some content) => .file content
  | some (_, none) => .directory
  | none =>
    if names.isEmpty || tree.entries.any (names.isPrefixOf ·.1) then .directory else .missing

/-- Follows the parts of a path, starting from a list of names.  A name that is too
long is noticed only in a directory, where it would be looked for. -/
def walk (tree : FileTree) : List String → List String → FileStatus
  | names, [] => tree.lookUp names
  | names, part :: rest =>
    match tree.lookUp names with
    | .directory =>
      if part = "" ∨ part = "." then tree.walk names rest
      else if part = ".." then tree.walk names.dropLast rest
      else if maxNameBytes < part.utf8ByteSize then .nameTooLong
      else tree.walk (names ++ [part]) rest
    | .file _ => .notDirectory
    | other => other

/-- What is found at a path, which starts from the working directory unless it
starts with a slash.  A path that cannot be one is not followed at all. -/
def status (tree : FileTree) (workingDirectory : List String) (path : String) : FileStatus :=
  if '\x00' ∈ path.toList then .nulInName
  else if path.isEmpty then .missing
  else if maxPathBytes < path.utf8ByteSize then .nameTooLong
  else if path.toList.head? = some '/' then tree.walk [] (pathParts path)
  else tree.walk workingDirectory (pathParts path)

end FileTree

end Gridwright
