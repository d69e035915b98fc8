/-
**Taking records apart.**

Archives are made of records: a mark, numbers of fixed widths with the lowest byte first, and parts
whose sizes were given before.  What is taken from the front of some bytes comes with the bytes
after it, and nothing comes when there are too few.

Main definitions:

* `takePart?`, `takeNumber?`, `afterMark?` — taking a part, a number or a mark;
* `placesOf` — where a mark stands.
-/

import Shaderworks.Data.Bytes

set_option autoImplicit false

namespace Shaderworks.Archive

/-- The first `count` bytes and the bytes after them, unless there are fewer. -/
def takePart? (count : Nat) (bytes : Bytes) : Option (Bytes × Bytes) :=
  let part := bytes.take count
  if part.length = count then some (part, bytes.drop count) else none

/-- The number that some bytes spell, the lowest first. -/
def numberOf (bytes : Bytes) : Nat := bytes.foldr (fun b sum => b.toNat + 256 * sum) 0

/-- The number that the first `count` bytes spell and the bytes after them, unless there are
fewer. -/
def takeNumber? (count : Nat) (bytes : Bytes) : Option (Nat × Bytes) :=
  (takePart? count bytes).map fun r => (numberOf r.1, r.2)

/-- The bytes after a mark, if that stands in front. -/
def afterMark? (mark bytes : Bytes) : Option Bytes :=
  if mark.isPrefixOf bytes then some (bytes.drop mark.length) else none

/-- The places where a mark stands in some bytes, the first of which has the place `place`. -/
def placesOf (mark : Bytes) : (place : Nat) → Bytes → List Nat
  | _, [] => []
  | place, b :: rest =>
      if mark.isPrefixOf (b :: rest) then place :: placesOf mark (place + 1) rest
      else placesOf mark (place + 1) rest

end Shaderworks.Archive
