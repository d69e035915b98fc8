/-
**File trees.**

A tree of directories and regular files, without links and without permissions.  A place in the tree
is the list of names that leads to it from the root.  A path is followed segment by segment, and
every segment but the last has to lead to a directory.

Main definitions:

* `FileTree`, `FileTree.entryAt` — what is where;
* `FileFault` — why an operation on files fails;
* `FileTree.locate` — the place that a path leads to;
* `FileTree.read`, `FileTree.write`, `FileTree.remove`, `FileTree.createDirectories`,
  `FileTree.namesIn` — the operations on files and directories.

Main results:

* `FileTree.entryAt_set` — what is where after one place was changed.
-/

import Shaderworks.Data.Bytes
import Shaderworks.Data.Table
import Shaderworks.Files.Path

set_option autoImplicit false

namespace Shaderworks

/-- What stands at a place in a tree. -/
inductive Entry where
  /-- A regular file with its content. -/
  | file (content : Bytes)
  /-- A directory. -/
  | directory
  deriving DecidableEq

/-- The names that lead to a place from the root. -/
abbrev Place := List String

/-- Why an operation on files fails. -/
inductive FileFault where
  /-- Nothing is there. -/
  | notFound
  /-- A segment leads on from something that is no directory. -/
  | notDirectory
  /-- A directory stands where a file is needed. -/
  | isDirectory
  /-- Something stands where a directory is to be made. -/
  | alreadyExists
  /-- A name, or the whole path, is too long. -/
  | tooLong
  /-- A path holds a null character. -/
  | invalidPath
  /-- The content is not the UTF-8 form of a text. -/
  | notText
  deriving DecidableEq

/-- The reason in words. -/
def FileFault.text : FileFault → String
  | notFound => "No such file or directory"
  | notDirectory => "Not a directory"
  | isDirectory => "Is a directory"
  | alreadyExists => "File exists"
  | tooLong => "File name too long"
  | invalidPath => "file name contained an unexpected NUL byte"
  | notText => "stream did not contain valid UTF-8"

/-- A tree of files and directories, by their places.  The root is always a directory. -/
structure FileTree where
  /-- What stands at the places other than the root. -/
  entries : Table Place Entry := Table.empty

namespace FileTree

/-! ### Places -/

/-- The tree with a root and nothing in it. -/
def empty : FileTree := {}

/-- What stands at a place. -/
def entryAt (tree : FileTree) (place : Place) : Option Entry :=
  if place = [] then some .directory else tree.entries.get? place

/-- The tree with something put at a place. -/
def set (tree : FileTree) (place : Place) (entry : Entry) : FileTree :=
  ⟨tree.entries.put place entry⟩

/-- The tree without what stands at a place. -/
def unset (tree : FileTree) (place : Place) : FileTree := ⟨tree.entries.erase place⟩

theorem entryAt_set {tree : FileTree} {place : Place} (h : place ≠ []) (entry : Entry)
    (other : Place) :
    (tree.set place entry).entryAt other =
      if other = place then some entry else tree.entryAt other := by
  by_cases ho : other = []
  · have hne : other ≠ place := fun heq => h (heq ▸ ho)
    simp [entryAt, ho, ho ▸ hne]
  · simp [entryAt, ho, set, Table.get?_put]

theorem entryAt_unset {tree : FileTree} {place : Place} (h : place ≠ []) (other : Place) :
    (tree.unset place).entryAt other = if other = place then none else tree.entryAt other := by
  by_cases ho : other = []
  · have hne : other ≠ place := fun heq => h (heq ▸ ho)
    simp [entryAt, ho, ho ▸ hne]
  · simp [entryAt, ho, unset, Table.get?_erase]

/-! ### Following paths -/

/-- The longest name of a file, in bytes. -/
def maxNameBytes : Nat := 255

/-- The length in bytes that a path must stay below. -/
def maxPathBytes : Nat := 4096

/-- Follows one segment from a place. -/
def step (tree : FileTree) (here : Place) (segment : String) : Except FileFault Place :=
  match tree.entryAt here with
  | none => .error .notFound
  | some (.file _) => .error .notDirectory
  | some .directory =>
      if segment = "" ∨ segment = "." then .ok here
      else if segment = ".." then .ok here.dropLast
      else if maxNameBytes < segment.utf8ByteSize then .error .tooLong
      else
        match tree.entryAt (here ++ [segment]) with
        | none => .error .notFound
        | some _ => .ok (here ++ [segment])

/-- Follows segments from a place. -/
def walk (tree : FileTree) : Place → List String → Except FileFault Place
  | here, [] => .ok here
  | here, segment :: rest =>
      match tree.step here segment with
      | .error fault => .error fault
      | .ok next => walk tree next rest

/-- What is wrong with the text of a path, before anything is looked up. -/
def pathFault? (path : Path) : Option FileFault :=
  if path.isEmpty then some .notFound
  else if path.toList.contains '\x00' then some .invalidPath
  else if maxPathBytes ≤ path.utf8ByteSize then some .tooLong
  else none

/-- The place that a path leads to from the root. -/
def locate (tree : FileTree) (path : Path) : Except FileFault Place :=
  match pathFault? path with
  | some fault => .error fault
  | none => tree.walk [] path.segments

/-- What stands where a path leads to. -/
def find (tree : FileTree) (path : Path) : Except FileFault (Place × Entry) :=
  match tree.locate path with
  | .error fault => .error fault
  | .ok place =>
      match tree.entryAt place with
      | none => .error .notFound
      | some entry => .ok (place, entry)

/-- Whether a path leads to a directory. -/
def isDirectory (tree : FileTree) (path : Path) : Bool :=
  match tree.find path with
  | .ok (_, .directory) => true
  | _ => false

/-- Whether a path leads to a regular file. -/
def isFile (tree : FileTree) (path : Path) : Bool :=
  match tree.find path with
  | .ok (_, .file _) => true
  | _ => false

/-! ### Reading -/

/-- The content of the file that a path leads to. -/
def read (tree : FileTree) (path : Path) : Except FileFault Bytes :=
  match tree.find path with
  | .error fault => .error fault
  | .ok (_, .directory) => .error .isDirectory
  | .ok (_, .file content) => .ok content

/-- The content of a file as a text. -/
def readText (tree : FileTree) (path : Path) : Except FileFault String :=
  match tree.read path with
  | .error fault => .error fault
  | .ok content =>
      match Bytes.text? content with
      | none => .error .notText
      | some text => .ok text

/-- The last name of a place that lies directly in a directory. -/
def nameIn? (directory place : Place) : Option String :=
  if place.dropLast = directory then place.getLast? else none

/-- The names in the directory that a path leads to, in no particular order. -/
def namesIn (tree : FileTree) (path : Path) : Except FileFault (List String) :=
  match tree.find path with
  | .error fault => .error fault
  | .ok (_, .file _) => .error .notDirectory
  | .ok (place, .directory) => .ok (tree.entries.keys.filterMap (nameIn? place))

/-! ### Changing -/

/-- Whether segments stay where they are and say so with a `.`: a directory that is asked for in
this way has to be there already. -/
def needsPresence (segments : List String) : Bool :=
  segments.contains "." && segments.all fun segment => segment == "" || segment == "."

/-- Makes the directories that segments lead through, as far as they are missing. -/
def makeAlong (tree : FileTree) : Place → List String → Except FileFault Place × FileTree
  | here, [] =>
      match tree.entryAt here with
      | some .directory => (.ok here, tree)
      | _ => (.error .alreadyExists, tree)
  | here, segment :: rest =>
      match tree.step here segment with
      | .ok next => makeAlong tree next rest
      | .error .notFound =>
          if needsPresence rest then (.error .notFound, tree)
          else makeAlong (tree.set (here ++ [segment]) .directory) (here ++ [segment]) rest
      | .error fault => (.error fault, tree)

/-- Makes a directory and those above it, as far as they are missing.  The empty path asks for
nothing. -/
def createDirectories (tree : FileTree) (path : Path) : Option FileFault × FileTree :=
  if path.isEmpty then (none, tree)
  else
    match pathFault? path with
    | some fault => (some fault, tree)
    | none =>
        match tree.makeAlong [] path.segments with
        | (.ok _, made) => (none, made)
        | (.error fault, made) => (some fault, made)

/-- The place where a path would have a file written: its parent has to be a directory. -/
def locateNew (tree : FileTree) (path : Path) : Except FileFault Place :=
  match pathFault? path with
  | some fault => .error fault
  | none =>
      match tree.walk [] path.segments.dropLast, path.segments.getLast? with
      | .error fault, _ => .error fault
      | .ok _, none => .error .isDirectory
      | .ok parent, some name =>
          match tree.step parent name with
          | .ok place => .ok place
          | .error .notFound =>
              if name = "" ∨ name = "." ∨ name = ".." then .error .isDirectory
              else .ok (parent ++ [name])
          | .error fault => .error fault

/-- Writes a file, in the stead of an earlier content. -/
def write (tree : FileTree) (path : Path) (content : Bytes) : Except FileFault FileTree :=
  match tree.locateNew path with
  | .error fault => .error fault
  | .ok place =>
      if tree.entryAt place = some .directory then .error .isDirectory
      else .ok (tree.set place (.file content))

/-- Removes a regular file. -/
def remove (tree : FileTree) (path : Path) : Except FileFault FileTree :=
  match tree.find path with
  | .error fault => .error fault
  | .ok (_, .directory) => .error .isDirectory
  | .ok (place, .file _) => .ok (tree.unset place)

/-- Removes what a path leads to, and all that is in it. -/
def removeAll (tree : FileTree) (path : Path) : Except FileFault FileTree :=
  match tree.find path with
  | .error fault => .error fault
  | .ok (place, _) =>
      .ok (tree.entries.keys.foldl (fun t p => if place.isPrefixOf p then t.unset p else t) tree)

end FileTree

end Shaderworks
