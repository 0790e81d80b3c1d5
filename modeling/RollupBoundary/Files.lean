import RollupBoundary.Text.Pieces
import RollupBoundary.Text.Utf8

/-!
# Files as a value

Some operations read a file.  What the file system holds is an argument to them, so that they stay
functions: a `FileSystem` says for each path which octets are there, or why there are none.

The usual one is that of a `FileTree`.  A path is the names between its slashes, and each name leads
one place on: an empty name and `.` stay, `..` goes back up, and any other name has to be an entry.
All of them lead on from directories alone, so a slash behind the name of a file is a fault.
-/

namespace RollupBoundary

/-- Why a file cannot be read as text. -/
inductive FileFault where
  | notFound
  | isDirectory
  /-- The path leads on from a file. -/
  | notDirectory
  /-- The path or a name in it is longer than those of files may be. -/
  | nameTooLong
  /-- The path has a zero character in it, as no path of a file has. -/
  | zeroInPath
  /-- Its octets are not UTF-8 throughout. -/
  | notText
deriving DecidableEq

/-- The text a fault is reported with. -/
def FileFault.message : FileFault → String
  | .notFound => "No such file or directory (os error 2)"
  | .isDirectory => "Is a directory (os error 21)"
  | .notDirectory => "Not a directory (os error 20)"
  | .nameTooLong => "File name too long (os error 36)"
  | .zeroInPath => "file name contained an unexpected NUL byte"
  | .notText => "stream did not contain valid UTF-8"

/-- What is found at each path. -/
abbrev FileSystem := String → Except FileFault Bytes

/-- The text of the file at a path. -/
def FileSystem.readText (files : FileSystem) (path : String) : Except FileFault String := do
  if path.toList.contains '\x00' then throw .zeroInPath
  let octets ← files path
  match Utf8.decode? octets with
  | some text => .ok text
  | none => .error .notText

/-! ## Trees of files -/

/-- A file or a directory. -/
inductive FileNode where
  | file (octets : Bytes)
  | directory (entries : List (String × FileNode))

/-- The greatest length of a name, in octets. -/
def maxNameLength : Nat := 255

/-- The greatest length of a path, in octets. -/
def maxPathLength : Nat := 4095

/-- A place in a tree: what is there, and the directories above it, the nearest first. -/
structure FilePlace where
  node : FileNode
  above : List FileNode

/-- The place that a name leads to.  Above the uppermost directory is that directory itself. -/
def FilePlace.next (p : FilePlace) (name : String) : Except FileFault FilePlace :=
  match p.node with
  | .file _ => .error .notDirectory
  | .directory entries =>
    if name = "" ∨ name = "." then .ok p
    else if name = ".." then
      match p.above with
      | [] => .ok p
      | node :: above => .ok ⟨node, above⟩
    else if maxNameLength < name.utf8ByteSize then .error .nameTooLong
    else
      match entries.lookup name with
      | some node => .ok ⟨node, p.node :: p.above⟩
      | none => .error .notFound

/-- Where paths begin: at the root with a slash in front, else at the working directory. -/
structure FileTree where
  root : FileNode
  working : FilePlace

/-- The place that a path leads to.  The empty path leads nowhere. -/
def FileTree.place (tree : FileTree) (path : String) : Except FileFault FilePlace :=
  if path = "" then .error .notFound
  else if maxPathLength < path.utf8ByteSize then .error .nameTooLong
  else
    let start : FilePlace :=
      if path.toList.head? = some '/' then ⟨tree.root, []⟩ else tree.working
    ((Text.cutAt '/' path.toList).map String.ofList).foldlM FilePlace.next start

/-- The files of a tree. -/
def FileTree.files (tree : FileTree) : FileSystem := fun path => do
  match (← tree.place path).node with
  | .file octets => .ok octets
  | .directory _ => .error .isDirectory

end RollupBoundary
