/-
**What an expansion writes, line by line.**

An expansion is a recursion through nested files that passes on the paths expanded so far.  If it
succeeds, what it wrote is told by four rules alone: a line is kept, a directive becomes a comment,
a directive becomes a block, and nothing becomes nothing.  Neither the limit of the nesting nor the
numbers of the lines matter any more, so an induction over the rules is an induction over the
expanded lines.

Main definitions:

* `Expands` — the lines that a list of lines expands to, with the paths expanded before and after.

Main results:

* `includePath?_eq_some` — what a directive looks like, as far as it matters here;
* `expands_of_expandFile`, `expands_of_expand` — a successful expansion follows the rules;
* `Expands.feed_not_mem` — no expanded line holds a feed.
-/

import Shaderworks.Proofs.Results
import Shaderworks.Proofs.Shader.Grammar
import Shaderworks.Proofs.Text.LineEnds
import Shaderworks.Shader.Expansion

set_option autoImplicit false

namespace Shaderworks.Shader

open Text

/-! ### Directives -/

/-- A directive begins with `#` behind blanks, and its path is a part of the line. -/
theorem includePath?_eq_some {line path : List Char} (h : includePath? line = some path) :
    ∃ rest, dropBlank line = '#' :: rest ∧ ∀ c ∈ path, c ∈ line := by
  obtain ⟨d, rfl, rfl⟩ := Directive.exists_of_includePath? h
  refine ⟨_, dropWhile_piece d.blank_indent (by decide), fun c hc => ?_⟩
  simp [Directive.line, hc]

/-! ### The rules -/

/-- The lines that `ls` expand to.  The paths in `seen` were expanded before, those in the last list
are afterwards. -/
inductive Expands (sources : Sources) :
    List String → List (List Char) → List (List Char) → List String → Prop
  /-- No lines expand to none. -/
  | nil (seen : List String) : Expands sources seen [] [] seen
  /-- A line that is no directive is kept. -/
  | plain {line : List Char} {rest out : List (List Char)} {seen seen' : List String}
      (hplain : includePath? line = none) (hrest : Expands sources seen rest out seen') :
      Expands sources seen (line :: rest) (line :: out) seen'
  /-- A directive for a path that was expanded before becomes a comment. -/
  | repeated {line path : List Char} {rest out : List (List Char)} {seen seen' : List String}
      (hpath : includePath? line = some path) (hseen : String.ofList path ∈ seen)
      (hrest : Expands sources seen rest out seen') :
      Expands sources seen (line :: rest) (repeatedLine line :: out) seen'
  /-- A directive for a new path becomes the block of its text. -/
  | nested {line path : List Char} {text : String} {rest inner out : List (List Char)}
      {seen mid seen' : List String} (hpath : includePath? line = some path)
      (hseen : String.ofList path ∉ seen) (htext : sources.get? (String.ofList path) = some text)
      (hinner : Expands sources (String.ofList path :: seen) (lines text.toList) inner mid)
      (hrest : Expands sources mid rest out seen') :
      Expands sources seen (line :: rest) (beginLine path :: inner ++ endLine path :: out) seen'

section Follows

variable {sources : Sources}

/-- An expansion follows the rules if the expansion of nested files does. -/
theorem expands_of_expandLines
    {nested : String → List (List Char) → List String → Except IncludeFault Expanded}
    (hnested : ∀ origin ls seen e, nested origin ls seen = .ok e →
      Expands sources seen ls e.out e.seen)
    (origin : String) (ls : List (List Char)) :
    ∀ n seen e, expandLines sources nested origin n ls seen = .ok e →
      Expands sources seen ls e.out e.seen := by
  induction ls with
  | nil =>
      intro n seen e h
      cases h
      exact .nil seen
  | cons line rest ih =>
      intro n seen e h
      cases hpath : includePath? line with
      | none =>
          rw [expandLines_plain hpath] at h
          obtain ⟨after, hafter, rfl⟩ := map_eq_ok h
          exact .plain hpath (ih _ _ _ hafter)
      | some path =>
          by_cases hseen : String.ofList path ∈ seen
          · rw [expandLines_repeated hpath hseen] at h
            obtain ⟨after, hafter, rfl⟩ := map_eq_ok h
            exact .repeated hpath hseen (ih _ _ _ hafter)
          · cases htext : sources.get? (String.ofList path) with
            | none =>
                rw [expandLines_missing hpath hseen htext] at h
                cases h
            | some text =>
                rw [expandLines_nested hpath hseen htext] at h
                obtain ⟨inner, hinner, hrest⟩ := bind_eq_ok h
                obtain ⟨after, hafter, rfl⟩ := map_eq_ok hrest
                exact .nested hpath hseen htext (hnested _ _ _ _ hinner) (ih _ _ _ hafter)

/-- **A successful expansion follows the rules**, however deep it may nest. -/
theorem expands_of_expandFile {limit : Nat} (levels : Nat) :
    ∀ origin ls seen e, expandFile sources limit levels origin ls seen = .ok e →
      Expands sources seen ls e.out e.seen := by
  -- The levels bound the recursion into files; the lines are an induction of their own.
  induction levels with
  | zero =>
      intro origin ls seen e h
      cases h
  | succ levels ih =>
      intro origin ls seen e h
      exact expands_of_expandLines ih origin ls 1 seen e h

/-- A source that is expanded successfully is expanded by the rules. -/
theorem expands_of_expand {limit : Nat} {source origin out : String}
    (h : expand sources limit source origin = .ok out) :
    ∃ ls seen, Expands sources [] (lines source.toList) ls seen ∧
      out = String.ofList (unlines ls) := by
  obtain ⟨e, he, rfl⟩ := map_eq_ok h
  exact ⟨e.out, e.seen, expands_of_expandFile _ _ _ _ _ he, rfl⟩

end Follows

/-! ### The lines that are written -/

theorem feed_not_mem_repeatedLine {line : List Char} (h : '\n' ∉ line) :
    '\n' ∉ repeatedLine line :=
  List.not_mem_append (List.not_mem_append (by decide) h) (by decide)

theorem feed_not_mem_beginLine {path : List Char} (h : '\n' ∉ path) : '\n' ∉ beginLine path :=
  List.not_mem_append (by decide) h

theorem feed_not_mem_endLine {path : List Char} (h : '\n' ∉ path) : '\n' ∉ endLine path :=
  List.not_mem_append (by decide) h

namespace Expands

variable {sources : Sources} {seen seen' : List String} {ls out : List (List Char)}

/-- **No expanded line holds a feed.** -/
theorem feed_not_mem (h : Expands sources seen ls out seen') (hls : ∀ line ∈ ls, '\n' ∉ line) :
    ∀ line ∈ out, '\n' ∉ line := by
  induction h with
  | nil => exact fun line hline => absurd hline List.not_mem_nil
  | plain hplain hrest ih =>
      have hfirst := hls _ List.mem_cons_self
      intro line hline
      rcases List.mem_cons.1 hline with rfl | hline
      · exact hfirst
      · exact ih (fun other hother => hls other (List.mem_cons_of_mem _ hother)) line hline
  | repeated hpath hseen hrest ih =>
      have hfirst := feed_not_mem_repeatedLine (hls _ List.mem_cons_self)
      intro line hline
      rcases List.mem_cons.1 hline with rfl | hline
      · exact hfirst
      · exact ih (fun other hother => hls other (List.mem_cons_of_mem _ hother)) line hline
  | nested hpath hseen htext hinner hrest ihinner ihrest =>
      obtain ⟨-, -, hsub⟩ := includePath?_eq_some hpath
      have hfeed := fun hmem => hls _ List.mem_cons_self (hsub '\n' hmem)
      intro line hline
      rw [List.cons_append, List.mem_cons, List.mem_append, List.mem_cons] at hline
      rcases hline with rfl | hline | rfl | hline
      · exact feed_not_mem_beginLine hfeed
      · exact ihinner (fun other hother => feed_not_mem_of_mem_lines hother) line hline
      · exact feed_not_mem_endLine hfeed
      · exact ihrest (fun other hother => hls other (List.mem_cons_of_mem _ hother)) line hline

end Expands

end Shaderworks.Shader
