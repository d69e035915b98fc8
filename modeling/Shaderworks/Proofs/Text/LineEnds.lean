/-
**Line feeds stand between lines.**

No line holds a feed, so lines that are written and read again come back one by one.  They come back
without a return at their end, for a return before a feed is taken for a part of the line end.

Main definitions:

* `trimReturn` — a line without a return at its end;
* `bareFeeds` — a text in which every feed has lost the return before it.

Main results:

* `feed_not_mem_of_mem_lines` — no line of a text holds a feed;
* `splitOn_unlines` — written lines come back when their text is split at the feeds, with an empty
  piece after the last feed;
* `lines_unlines_eq` — read as lines, they come back without a return at their end;
* `bareFeeds_unlines` — so they do from the text in which every feed has lost the return before it.
-/

import Shaderworks.Text.Lines

set_option autoImplicit false

namespace Shaderworks.Text

theorem dropReturn_suffix (line : List Char) : dropReturn line <:+ line := by
  unfold dropReturn
  split
  · exact List.suffix_cons _ _
  · exact List.suffix_refl _

theorem mem_of_mem_dropReturn {line : List Char} {c : Char} (h : c ∈ dropReturn line) :
    c ∈ line :=
  (dropReturn_suffix line).mem h

theorem feed_not_mem_of_mem_linesFrom {text : List Char} :
    ∀ {begun : List Char}, '\n' ∉ begun → ∀ line ∈ linesFrom begun text, '\n' ∉ line := by
  induction text with
  | nil =>
      intro begun hbegun line hline
      rw [linesFrom] at hline
      split at hline
      · cases hline
      · rw [List.mem_singleton.1 hline, List.mem_reverse]
        exact hbegun
  | cons c text ih =>
      intro begun hbegun line hline
      rw [linesFrom] at hline
      split at hline
      · rcases List.mem_cons.1 hline with rfl | hline
        · rw [List.mem_reverse]
          exact fun hmem => hbegun (mem_of_mem_dropReturn hmem)
        · exact ih List.not_mem_nil line hline
      · next hc =>
          refine ih (fun hmem => ?_) line hline
          rcases List.mem_cons.1 hmem with heq | hmem
          · exact hc heq.symm
          · exact hbegun hmem

/-- **No line of a text holds a feed.** -/
theorem feed_not_mem_of_mem_lines {text line : List Char} (h : line ∈ lines text) : '\n' ∉ line :=
  feed_not_mem_of_mem_linesFrom List.not_mem_nil line h

/-- **Written lines come back when their text is split at the feeds.** -/
theorem splitOn_unlines {ls : List (List Char)} (h : ∀ line ∈ ls, '\n' ∉ line) :
    (unlines ls).splitOn '\n' = ls ++ [[]] := by
  induction ls with
  | nil => rfl
  | cons line ls ih =>
      rw [unlines_cons, List.splitOn_append_cons_self_of_not_mem (h line List.mem_cons_self),
        ih fun other hother => h other (List.mem_cons_of_mem _ hother), List.cons_append]

/-! ### Returns -/

/-- A line without a return at its end. -/
def trimReturn (line : List Char) : List Char := (dropReturn line.reverse).reverse

/-- A text in which every feed has lost the return before it. -/
def bareFeeds : List Char → List Char
  | [] => []
  | '\r' :: '\n' :: rest => '\n' :: bareFeeds rest
  | c :: rest => c :: bareFeeds rest

@[simp] theorem trimReturn_nil : trimReturn [] = [] := rfl

@[simp] theorem trimReturn_return (line : List Char) : trimReturn (line ++ ['\r']) = line := by
  simp [trimReturn, dropReturn]

theorem trimReturn_concat {c : Char} (hc : c ≠ '\r') (line : List Char) :
    trimReturn (line ++ [c]) = line ++ [c] := by
  rw [trimReturn, dropReturn_eq_self (by simpa using hc), List.reverse_reverse]

/-- Nothing but the end of a line is trimmed. -/
theorem trimReturn_prefix (line : List Char) : trimReturn line <+: line := by
  rw [← List.reverse_suffix, trimReturn, List.reverse_reverse]
  exact dropReturn_suffix line.reverse

/-- **Written lines are read again without a return at their end.** -/
theorem lines_unlines_eq {ls : List (List Char)} (h : ∀ line ∈ ls, '\n' ∉ line) :
    lines (unlines ls) = ls.map trimReturn := by
  induction ls with
  | nil => rfl
  | cons line ls ih =>
      obtain ⟨hline, hls⟩ := List.forall_mem_cons.1 h
      rw [unlines_cons, linesFrom_append_feed hline, ih hls]
      rfl

/-- A character that is no return before a feed is kept. -/
theorem bareFeeds_cons {c : Char} {rest : List Char} (h : c = '\r' → rest.head? ≠ some '\n') :
    bareFeeds (c :: rest) = c :: bareFeeds rest := by
  rw [bareFeeds]
  rintro rest' rfl rfl
  exact h rfl rfl

/-- A piece without feeds is kept if no feed follows it. -/
theorem bareFeeds_append {piece rest : List Char} (hpiece : '\n' ∉ piece)
    (hrest : rest.head? ≠ some '\n') : bareFeeds (piece ++ rest) = piece ++ bareFeeds rest := by
  induction piece with
  | nil => rfl
  | cons c piece ih =>
      rw [List.mem_cons, not_or] at hpiece
      have hnext : (piece ++ rest).head? ≠ some '\n' := by
        cases piece with
        | nil => exact hrest
        | cons d piece =>
            intro heq
            exact hpiece.2 (Option.some.inj heq ▸ List.mem_cons_self)
      rw [List.cons_append, bareFeeds_cons fun _ => hnext, ih hpiece.2, List.cons_append]

/-- A line loses the return at its end. -/
theorem bareFeeds_line {line : List Char} (h : '\n' ∉ line) (rest : List Char) :
    bareFeeds (line ++ '\n' :: rest) = trimReturn line ++ '\n' :: bareFeeds rest := by
  have hfeed : bareFeeds ('\n' :: rest) = '\n' :: bareFeeds rest := bareFeeds_cons (by simp)
  rcases List.eq_nil_or_concat line with rfl | ⟨front, c, rfl⟩
  · exact hfeed
  · rw [List.concat_eq_append] at h ⊢
    rw [List.mem_append, List.mem_singleton, not_or] at h
    have hnext : (c :: '\n' :: rest).head? ≠ some '\n' := by simpa using Ne.symm h.2
    rw [List.append_assoc, List.singleton_append, bareFeeds_append h.1 hnext]
    by_cases hc : c = '\r'
    · subst hc
      rw [trimReturn_return, bareFeeds]
    · rw [trimReturn_concat hc, bareFeeds_cons fun heq => absurd heq hc, hfeed]
      simp

/-- **The lines of a text without returns before feeds are trimmed.** -/
theorem bareFeeds_unlines {ls : List (List Char)} (h : ∀ line ∈ ls, '\n' ∉ line) :
    bareFeeds (unlines ls) = unlines (ls.map trimReturn) := by
  induction ls with
  | nil => rfl
  | cons line ls ih =>
      obtain ⟨hline, hls⟩ := List.forall_mem_cons.1 h
      rw [unlines_cons, bareFeeds_line hline, ih hls, List.map_cons, unlines_cons]

/-- A text without returns before feeds is kept. -/
theorem bareFeeds_eq_self {text : List Char} (h : ¬ ['\r', '\n'] <:+: text) :
    bareFeeds text = text := by
  induction text with
  | nil => rfl
  | cons c text ih =>
      rw [List.infix_cons_iff, not_or] at h
      rw [bareFeeds_cons, ih h.2]
      rintro rfl hnext
      obtain ⟨rest, rfl⟩ := List.head?_eq_some_iff.1 hnext
      exact h.1 ⟨rest, rfl⟩

/-- Only the return right before the feed is lost. -/
example : bareFeeds "a\r\r\nb\rc\r".toList = "a\r\nb\rc\r".toList := by decide

end Shaderworks.Text
