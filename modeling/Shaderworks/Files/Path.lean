/-
**Paths.**

A path is a text of segments between slashes.  A leading slash makes it absolute; empty segments and
`.` stay where they are; `..` goes up.

Main definitions:

* `Path` — the text of a path;
* `Path.join` — a path taken from another;
* `Path.segments` — the texts between the slashes;
* `Path.staysBelow` — whether a path can only lead downwards;
* `Path.extension?` — what follows the last dot of a file name.

Main results:

* `Path.staysBelow_iff` — the paths that stay below are those with no leading slash and no `..`.
-/

import Shaderworks.Text.Search

set_option autoImplicit false

namespace Shaderworks

/-- The text of a path. -/
abbrev Path := String

namespace Path

/-- Whether a path starts at the root. -/
def isAbsolute (path : Path) : Bool := path.toList.head? == some '/'

/-- A path taken from a base.  An absolute path stands alone; else one slash parts the two. -/
def join (base path : Path) : Path :=
  if path.isAbsolute || base.isEmpty then path
  else if base.toList.getLast? == some '/' then base ++ path
  else base ++ "/" ++ path

/-- The texts between the slashes, the first of which has begun with `begun`, given backwards. -/
def segmentsFrom (begun : List Char) : List Char → List String
  | [] => [String.ofList begun.reverse]
  | c :: rest =>
      if c = '/' then String.ofList begun.reverse :: segmentsFrom [] rest
      else segmentsFrom (c :: begun) rest

/-- The texts between the slashes of a path.  An absolute path has an empty first segment. -/
def segments (path : Path) : List String := segmentsFrom [] path.toList

/-- Whether a path is relative and never goes up. -/
def staysBelow (path : Path) : Bool := !path.isAbsolute && !path.segments.contains ".."

/-- What follows the last dot of a file name.  A name without a dot after its first character has no
extension. -/
def extension? (name : String) : Option String :=
  let backwards := name.toList.reverse
  let after := backwards.takeWhile fun c => c != '.'
  let before := (backwards.dropWhile fun c => c != '.').drop 1
  if before.isEmpty || name == ".." then none else some (String.ofList after.reverse)

/-- Whether a file name has an extension, whatever the case of its letters. -/
def hasExtension (name extension : String) : Bool :=
  match extension? name with
  | none => false
  | some e => e.toList.map Char.toLower == extension.toList.map Char.toLower

/-- The paths that stay below are those with no leading slash and no `..` among their segments. -/
theorem staysBelow_iff {path : Path} :
    path.staysBelow = true ↔ path.isAbsolute = false ∧ ".." ∉ path.segments := by
  simp [staysBelow]

end Path

end Shaderworks
