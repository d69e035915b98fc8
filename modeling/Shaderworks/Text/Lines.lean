/-
**Lines of a text.**

A text is read line by line: a line ends at a line feed, and a carriage return right before that
feed belongs to the line end.  What follows the last feed is a line too, unless it is empty, and it
keeps a carriage return at its own end.  When lines are written again, each ends with a feed.

Main definitions:

* `lines` — the lines of a text;
* `unlines` — the text of some lines, a line feed after each.

Main results:

* `linesFrom_append_feed` — a line without feed or final return is read back from its text.
-/

set_option autoImplicit false

namespace Shaderworks.Text

/-- Drops the carriage return that ends a line; the line is given backwards. -/
def dropReturn : List Char → List Char
  | '\r' :: line => line
  | line => line

/-- The lines of a text whose first line has begun with `begun`, given backwards. -/
def linesFrom (begun : List Char) : List Char → List (List Char)
  | [] => if begun.isEmpty then [] else [begun.reverse]
  | c :: rest =>
      if c = '\n' then (dropReturn begun).reverse :: linesFrom [] rest
      else linesFrom (c :: begun) rest

/-- The lines of a text, without their ends. -/
def lines (text : List Char) : List (List Char) := linesFrom [] text

/-- The text of some lines: a line feed follows each. -/
def unlines (ls : List (List Char)) : List Char := ls.flatMap fun l => l ++ ['\n']

@[simp] theorem unlines_nil : unlines [] = [] := rfl

@[simp] theorem unlines_cons (l : List Char) (ls : List (List Char)) :
    unlines (l :: ls) = l ++ '\n' :: unlines ls := by
  simp [unlines]

theorem unlines_append (ls ms : List (List Char)) :
    unlines (ls ++ ms) = unlines ls ++ unlines ms := by
  simp [unlines]

/-- A piece without line feed only makes the line that has begun longer. -/
theorem linesFrom_append {piece : List Char} (h : '\n' ∉ piece) (begun rest : List Char) :
    linesFrom begun (piece ++ rest) = linesFrom (piece.reverse ++ begun) rest := by
  induction piece generalizing begun with
  | nil => rfl
  | cons c piece ih =>
      have hc : c ≠ '\n' := fun heq => h (heq ▸ List.mem_cons_self ..)
      have hp : '\n' ∉ piece := fun hm => h (List.mem_cons_of_mem _ hm)
      simp [linesFrom, hc, ih hp]

/-- A line ends at the feed that follows it, without the return before the feed. -/
theorem linesFrom_append_feed {line : List Char} (h : '\n' ∉ line) (rest : List Char) :
    lines (line ++ '\n' :: rest) = (dropReturn line.reverse).reverse :: lines rest := by
  rw [lines, linesFrom_append h]
  simp [linesFrom, lines]

theorem dropReturn_eq_self {line : List Char} (h : line.head? ≠ some '\r') :
    dropReturn line = line := by
  unfold dropReturn
  split
  · simp at h
  · rfl

end Shaderworks.Text
