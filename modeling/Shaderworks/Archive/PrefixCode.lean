/-
**Prefix codes given by the lengths of their words.**

A compressed text names each symbol by a word of bits, none of which begins another.  Such a code is
given by the lengths of its words alone: shorter words come before longer ones, words of one length
follow the order of their symbols, and each is the least that is still free.  Filled from the left,
a binary tree has exactly these words as the ways to its leaves.

Main definitions:

* `CodeTree` — binary trees with symbols at their leaves;
* `CodeTree.ofLengths?` — the tree of a list of lengths;
* `CodeTree.decode?` — the symbol whose word a list of bits begins with.
-/

set_option autoImplicit false

namespace Shaderworks.Archive

/-- A binary tree with symbols at its leaves. -/
inductive CodeTree where
  /-- No word leads here. -/
  | vacant
  /-- The word of a symbol ends here. -/
  | leaf (symbol : Nat)
  /-- Words go on with a zero or a one. -/
  | fork (zero one : CodeTree)

namespace CodeTree

/-- The longest word of a code. -/
def maxLength : Nat := 15

/-- Fills the tree at some depth from the left with symbols of ascending length, given with their
lengths; what does not fit is left over.  `levels` more levels may follow. -/
def fill : (levels depth : Nat) → List (Nat × Nat) → CodeTree × List (Nat × Nat)
  | _, _, [] => (.vacant, [])
  | 0, _, (_, symbol) :: rest => (.leaf symbol, rest)
  | levels + 1, depth, (length, symbol) :: rest =>
      if length = depth then (.leaf symbol, rest)
      else
        let (zero, rest) := fill levels (depth + 1) ((length, symbol) :: rest)
        let (one, rest) := fill levels (depth + 1) rest
        (.fork zero one, rest)

/-- The symbols that have words, with the lengths of these, shorter words first. -/
def sorted (lengths : List Nat) : List (Nat × Nat) :=
  (List.range maxLength).flatMap fun n =>
    lengths.zipIdx.filter fun p => p.1 = n + 1

/-- Whether every way through the tree ends at a leaf. -/
def isFull : CodeTree → Bool
  | vacant => false
  | leaf _ => true
  | fork zero one => zero.isFull && one.isFull

/-- The tree of a list of lengths, zero for symbols without a word.  There must not be more words
than fit, and not fewer either, unless all have the length one and `sparse` codes are admitted. -/
def ofLengths? (sparse : Bool) (lengths : List Nat) : Option CodeTree :=
  let (tree, left) := fill maxLength 0 (sorted lengths)
  if !left.isEmpty then none
  else if tree.isFull || (sparse && lengths.all (· ≤ 1)) then some tree
  else none

/-- The symbol whose word a list of bits begins with, and the bits after the word.  There is none
when the bits end within a word, or when no word begins like them. -/
def decode? : CodeTree → List Bool → Option (Nat × List Bool)
  | vacant, _ => none
  | leaf symbol, bits => some (symbol, bits)
  | fork _ _, [] => none
  | fork zero one, bit :: bits => if bit then one.decode? bits else zero.decode? bits

end CodeTree

end Shaderworks.Archive
