/-
**Carriage returns in an expanded text.**

An expanded text is lines with a feed after each, so it is empty or ends with a feed.  A return before a
feed is a part of the line end and is dropped when a line is read; but only one is, and a return at the
very end of a text, with no feed behind it, is none before a feed.  A line that keeps a return at its end
gets a feed behind it when it is written, and so does the line that names a file whose path ends with a
return.  Apart from these no return stands before a feed.

Main definitions:

* `Text.EndsWithReturn`, `Text.Clean` — a line that ends with a return; a text that is read without one
  at the end of a line;
* `KeepsReturn` — lines of which one is kept with a return at its end;
* `LeavesReturn` — a file whose block has a line with a return at its end.

Main results:

* `Text.infix_unlines_iff` — a return stands before a feed where a written line ends with one;
* `Text.exists_endsWithReturn_iff` — a line that is read ends with a return where a text has two
  returns before a feed, or one at its end;
* `Expands.exists_endsWithReturn_iff` — the expanded lines that end with a return;
* `expand_line_ends` — **where an expanded text has returns before feeds.**
-/

import Shaderworks.Proofs.Shader.Reachability
import Shaderworks.Proofs.Text.Pieces
import Mathlib.Data.List.Basic

set_option autoImplicit false

namespace Shaderworks

namespace Text

/-! ### Returns before feeds -/

/-- A line ends with a return. -/
def EndsWithReturn (line : List Char) : Prop := line.getLast? = some '\r'

theorem endsWithReturn_iff_suffix {line : List Char} : EndsWithReturn line ↔ ['\r'] <:+ line := by
  rw [EndsWithReturn, List.getLast?_eq_some_iff]
  exact exists_congr fun front => eq_comm

instance (line : List Char) : Decidable (EndsWithReturn line) :=
  inferInstanceAs (Decidable (line.getLast? = some '\r'))

/-- How a line ends is told by what stands at its end. -/
theorem endsWithReturn_append_of_ne_nil (front : List Char) {line : List Char} (h : line ≠ []) :
    EndsWithReturn (front ++ line) ↔ EndsWithReturn line := by
  rw [EndsWithReturn, List.getLast?_append_of_ne_nil _ h, EndsWithReturn]

theorem endsWithReturn_append_iff {front : List Char} (h : ¬ EndsWithReturn front)
    (line : List Char) : EndsWithReturn (front ++ line) ↔ EndsWithReturn line := by
  by_cases hline : line = []
  · rw [hline, List.append_nil]
    exact iff_of_false h (by decide)
  · exact endsWithReturn_append_of_ne_nil front hline

/-- What stands before the first feed of a text is the end of the piece before it. -/
theorem prefix_feed_iff {word piece : List Char} (hword : '\n' ∉ word) (hpiece : '\n' ∉ piece)
    (rest : List Char) : word ++ ['\n'] <+: piece ++ '\n' :: rest ↔ word = piece := by
  have hplain : ∀ {line : List Char}, '\n' ∉ line → ∀ c ∈ line, (c != '\n') = true :=
    fun hline c hc => bne_iff_ne.2 fun heq => hline (heq ▸ hc)
  constructor
  · rintro ⟨behind, heq⟩
    rw [List.append_assoc] at heq
    exact (piece_unique (hplain hword) (by decide) (hplain hpiece) (by decide) heq).1
  · rintro rfl
    exact ⟨rest, by simp⟩

/-- A word stands before a feed at the end of the first piece, or behind the feed after it. -/
theorem infix_feed_iff {word piece : List Char} (hword : '\n' ∉ word) (hpiece : '\n' ∉ piece)
    (rest : List Char) :
    word ++ ['\n'] <:+: piece ++ '\n' :: rest ↔ word <:+ piece ∨ word ++ ['\n'] <:+: rest := by
  induction piece with
  | nil =>
      have hfirst := prefix_feed_iff hword List.not_mem_nil rest
      rw [List.nil_append] at hfirst ⊢
      rw [List.infix_cons_iff, hfirst, List.suffix_nil]
  | cons c piece ih =>
      have hfirst := prefix_feed_iff hword hpiece rest
      rw [List.cons_append] at hfirst ⊢
      rw [List.infix_cons_iff, hfirst, List.suffix_cons_iff, or_assoc,
        ih fun hmem => hpiece (List.mem_cons_of_mem _ hmem)]

/-- **A return stands before a feed exactly where a written line ends with one.** -/
theorem infix_unlines_iff {ls : List (List Char)} (h : ∀ line ∈ ls, '\n' ∉ line) :
    ['\r', '\n'] <:+: unlines ls ↔ ∃ line ∈ ls, EndsWithReturn line := by
  induction ls with
  | nil => simp
  | cons line ls ih =>
      obtain ⟨hline, hls⟩ := List.forall_mem_cons.1 h
      have hreturn : '\n' ∉ ['\r'] := by decide
      have hsplit := infix_feed_iff hreturn hline (unlines ls)
      rw [List.singleton_append] at hsplit
      rw [unlines_cons, hsplit, ih hls, ← endsWithReturn_iff_suffix, List.exists_mem_cons_iff]

/-- A written text is empty or ends with a feed. -/
theorem unlines_ends (ls : List (List Char)) :
    unlines ls = [] ∨ (unlines ls).getLast? = some '\n' := by
  rcases List.eq_nil_or_concat' ls with rfl | ⟨front, last, rfl⟩
  · exact .inl rfl
  · refine .inr ?_
    rw [unlines_append, unlines_cons, unlines_nil, ← List.append_assoc, List.getLast?_concat]

/-! ### Lines that keep a return -/

/-- A line without the return of its line end ends with a return if there were two. -/
theorem endsWithReturn_trimReturn_iff (line : List Char) :
    EndsWithReturn (trimReturn line) ↔ ['\r', '\r'] <:+ line := by
  rcases List.eq_nil_or_concat' line with rfl | ⟨front, c, rfl⟩
  · simp [EndsWithReturn]
  · have htwo : ['\r', '\r'] <:+ front ++ [c] ↔ c = '\r' ∧ ['\r'] <:+ front := by
      simp only [← List.reverse_prefix, List.reverse_append, List.reverse_cons, List.reverse_nil,
        List.nil_append, List.cons_append, List.cons_prefix_cons, eq_comm (a := '\r')]
    rw [htwo]
    by_cases hc : c = '\r'
    · rw [hc, trimReturn_return, endsWithReturn_iff_suffix]
      simp
    · rw [trimReturn_concat hc, EndsWithReturn, List.getLast?_concat]
      simp [hc]

/-- **A line that is read ends with a return exactly where a text has two returns before a feed, or one
at its end.** -/
theorem exists_endsWithReturn_iff (text : List Char) :
    (∃ line ∈ lines text, EndsWithReturn line) ↔
      ['\r', '\r', '\n'] <:+: text ∨ EndsWithReturn text := by
  induction hlength : text.length using Nat.strongRecOn generalizing text with
  | ind n ih =>
      by_cases hfeed : '\n' ∈ text
      · obtain ⟨piece, rest, rfl, hpiece⟩ := List.eq_append_cons_of_mem hfeed
        have hreturns : '\n' ∉ ['\r', '\r'] := by decide
        have hsplit := infix_feed_iff hreturns hpiece rest
        rw [List.cons_append, List.singleton_append] at hsplit
        have hend : EndsWithReturn (piece ++ '\n' :: rest) ↔ EndsWithReturn rest := by
          unfold EndsWithReturn
          rcases List.eq_nil_or_concat' rest with rfl | ⟨front, c, rfl⟩
          · simp
          · rw [← List.cons_append, ← List.append_assoc, List.getLast?_concat, List.getLast?_concat]
        have hrest := ih rest.length (by simp at hlength; omega) rest rfl
        rw [linesFrom_append_feed hpiece, List.exists_mem_cons_iff, hrest, hsplit, hend, or_assoc]
        exact or_congr_left (endsWithReturn_trimReturn_iff piece)
      · -- Without a feed there is one line, and it is kept as it is.
        have hnone : ¬ ['\r', '\r', '\n'] <:+: text :=
          fun h => hfeed (h.subset (by decide))
        have hlines : lines text = if text.isEmpty then [] else [text] := by
          have hfrom := linesFrom_append hfeed [] []
          rw [List.append_nil, List.append_nil] at hfrom
          rw [lines, hfrom, linesFrom]
          simp
        rw [hlines, or_iff_right hnone]
        cases text with
        | nil => simp [EndsWithReturn]
        | cons c text => simp

/-- A text with one return at most before a feed, and none at its very end. -/
def Clean (text : List Char) : Prop := ¬ ['\r', '\r', '\n'] <:+: text ∧ ¬ EndsWithReturn text

instance (text : List Char) : Decidable (Clean text) := inferInstanceAs (Decidable (_ ∧ _))

end Text

namespace Shader

open Text

variable {sources : Sources} {seen seen' : List String} {ls out : List (List Char)}

/-! ### Lines that are kept with a return -/

/-- One of some lines that is no directive, and hence is kept, ends with a return. -/
def KeepsReturn (ls : List (List Char)) : Prop :=
  ∃ line ∈ ls, includePath? line = none ∧ EndsWithReturn line

/-- The block of a file has a line that ends with a return: one that names the file, because its path
does, or one that is kept of its text. -/
def LeavesReturn (sources : Sources) (file : String) : Prop :=
  EndsWithReturn file.toList ∨
    ∃ text, sources.get? file = some text ∧ KeepsReturn (lines text.toList)

theorem not_keepsReturn_nil : ¬ KeepsReturn [] := by
  rintro ⟨line, hline, -⟩
  exact List.not_mem_nil hline

theorem keepsReturn_plain {line : List Char} (h : includePath? line = none)
    (rest : List (List Char)) :
    KeepsReturn (line :: rest) ↔ EndsWithReturn line ∨ KeepsReturn rest := by
  rw [KeepsReturn, List.exists_mem_cons_iff]
  exact or_congr_left (and_iff_right h)

theorem keepsReturn_directive {line path : List Char} (h : includePath? line = some path)
    (rest : List (List Char)) : KeepsReturn (line :: rest) ↔ KeepsReturn rest := by
  rw [KeepsReturn, List.exists_mem_cons_iff]
  refine or_iff_right fun hkept => ?_
  rw [h] at hkept
  cases hkept.1

/-! ### Lines that are written -/

/-- The comment for a repeated directive ends with a bracket. -/
theorem not_endsWithReturn_repeatedLine (line : List Char) :
    ¬ EndsWithReturn (repeatedLine line) := by
  rw [repeatedLine, endsWithReturn_append_of_ne_nil _ (by decide)]
  decide

/-- The lines around a block end as the path does. -/
theorem endsWithReturn_beginLine_iff (path : List Char) :
    EndsWithReturn (beginLine path) ↔ EndsWithReturn path :=
  endsWithReturn_append_iff (by decide) path

theorem endsWithReturn_endLine_iff (path : List Char) :
    EndsWithReturn (endLine path) ↔ EndsWithReturn path :=
  endsWithReturn_append_iff (by decide) path

namespace Expands

/-- The files that are new behind a block are the file of the block, those that are new inside it,
and those that are new behind it. -/
theorem new_iff {path file : String} {mid : List String} {inner rest out' : List (List Char)}
    (hseen : path ∉ seen) (hinner : Expands sources (path :: seen) ls inner mid)
    (hrest : Expands sources mid rest out' seen') :
    (file ∈ seen' ∧ file ∉ seen) ↔
      file = path ∨ (file ∈ mid ∧ file ∉ path :: seen) ∨ (file ∈ seen' ∧ file ∉ mid) := by
  constructor
  · rintro ⟨hfile, hnew⟩
    rcases new_cases path mid hnew with hself | hinside | hbehind
    · exact .inl hself
    · exact .inr (.inl hinside)
    · exact .inr (.inr ⟨hfile, hbehind⟩)
  · rintro (rfl | ⟨hmid, hnew⟩ | ⟨hfile, hnew⟩)
    · exact ⟨hrest.seen_subset hinner.path_mem, hseen⟩
    · exact ⟨hrest.seen_subset hmid, fun hmem => hnew (List.mem_cons_of_mem _ hmem)⟩
    · exact ⟨hfile, fun hmem => hnew (hinner.seen_subset (List.mem_cons_of_mem _ hmem))⟩

/-- **The expanded lines that end with a return** are those that are kept with one, and those of the
files that are new among those expanded. -/
theorem exists_endsWithReturn_iff (h : Expands sources seen ls out seen') :
    (∃ line ∈ out, EndsWithReturn line) ↔
      KeepsReturn ls ∨ ∃ file, (file ∈ seen' ∧ file ∉ seen) ∧ LeavesReturn sources file := by
  induction h with
  | nil seen =>
      have hnew : ¬ ∃ file, (file ∈ seen ∧ file ∉ seen) ∧ LeavesReturn sources file :=
        fun ⟨_, hfile, _⟩ => hfile.2 hfile.1
      exact iff_of_false (by simp) (not_or_intro not_keepsReturn_nil hnew)
  | plain hplain hrest ih =>
      rw [List.exists_mem_cons_iff, ih, keepsReturn_plain hplain, or_assoc]
  | repeated hpath hseen hrest ih =>
      rw [List.exists_mem_cons_iff, ih, keepsReturn_directive hpath,
        or_iff_right (not_endsWithReturn_repeatedLine _)]
  | @nested line path text rest inner out seen mid seen' hpath hseen htext hinner hrest ihinner
      ihrest =>
      have hfile : LeavesReturn sources (String.ofList path) ↔
          EndsWithReturn path ∨ KeepsReturn (lines text.toList) := by
        rw [LeavesReturn, String.toList_ofList, htext]
        simp
      have hnew : (∃ file, (file ∈ seen' ∧ file ∉ seen) ∧ LeavesReturn sources file) ↔
          LeavesReturn sources (String.ofList path) ∨
            (∃ file, (file ∈ mid ∧ file ∉ String.ofList path :: seen) ∧
              LeavesReturn sources file) ∨
            ∃ file, (file ∈ seen' ∧ file ∉ mid) ∧ LeavesReturn sources file := by
        simp only [new_iff hseen hinner hrest, or_and_right, exists_or, exists_eq_left]
      have hout : (∃ line ∈ beginLine path :: inner ++ endLine path :: out, EndsWithReturn line) ↔
          EndsWithReturn path ∨ (∃ line ∈ inner, EndsWithReturn line) ∨
            EndsWithReturn path ∨ ∃ line ∈ out, EndsWithReturn line := by
        simp only [List.cons_append, List.mem_cons, List.mem_append, or_and_right, exists_or,
          exists_eq_left, endsWithReturn_beginLine_iff, endsWithReturn_endLine_iff]
      rw [hout, hnew, hfile, keepsReturn_directive hpath, ihinner, ihrest]
      simp only [or_assoc, or_left_comm, or_self_left]

end Expands

/-! ### The expanded text -/

/-- No line of a clean text is kept with a return. -/
theorem not_keepsReturn_of_clean {text : List Char} (h : Clean text) :
    ¬ KeepsReturn (lines text) := by
  rintro ⟨line, hline, -, hreturn⟩
  rcases (Text.exists_endsWithReturn_iff text).1 ⟨line, hline, hreturn⟩ with htwo | hend
  · exact h.1 htwo
  · exact h.2 hend

/-- **Where an expanded text has returns before feeds.**

* The text is empty or ends with a feed.
* It has a return right before a feed exactly when a line that is no directive, of the source or of the
  text of a file that it reaches, is read with a return at its end, or a path that it reaches ends with
  a return.
* So it has none if the source and the texts of the files that it reaches are clean, with one return at
  most before a feed and none at the very end, and no path that it reaches ends with a return. -/
theorem expand_line_ends {limit : Nat} {source origin out : String}
    (h : expand sources limit source origin = .ok out) :
    (out = "" ∨ out.toList.getLast? = some '\n') ∧
      (['\r', '\n'] <:+: out.toList ↔
        KeepsReturn (lines source.toList) ∨
          ∃ file, Reachable sources source file ∧ LeavesReturn sources file) ∧
      (Clean source.toList →
        (∀ file, Reachable sources source file → ¬ EndsWithReturn file.toList ∧
          ∀ text, sources.get? file = some text → Clean text.toList) →
        ¬ ['\r', '\n'] <:+: out.toList) := by
  obtain ⟨ls, seen, hexpands, rfl⟩ := expands_of_expand h
  have hfeed : ∀ line ∈ ls, '\n' ∉ line :=
    hexpands.feed_not_mem fun line hline => feed_not_mem_of_mem_lines hline
  have hreturns : ['\r', '\n'] <:+: unlines ls ↔ KeepsReturn (lines source.toList) ∨
      ∃ file, Reachable sources source file ∧ LeavesReturn sources file := by
    rw [infix_unlines_iff hfeed, hexpands.exists_endsWithReturn_iff]
    simp only [List.not_mem_nil, not_false_eq_true, and_true, hexpands.mem_iff_reachable]
  rw [String.toList_ofList]
  refine ⟨(unlines_ends ls).imp_left fun hnil => by rw [hnil], hreturns, fun hsource hfiles => ?_⟩
  rw [hreturns]
  rintro (hkept | ⟨file, hreached, hpath | ⟨text, htext, hkept⟩⟩)
  · exact not_keepsReturn_of_clean hsource hkept
  · exact (hfiles file hreached).1 hpath
  · exact not_keepsReturn_of_clean ((hfiles file hreached).2 text htext) hkept

/-- A source and a file with line ends of both kinds, a return inside of a line, and last lines without
an end: every line of the expanded text ends with a bare feed. -/
theorem expand_line_ends_clean :
    let sources : Sources := NameMap.ofList [("p", "b\n\rc")]
    let source := "#include <p>\r\na\r\n\n#include <p>"
    let out := "// BEGIN INCLUDE p\nb\n\rc\n// END INCLUDE p\na\n\n" ++
      "// #include <p> [already included]\n"
    expand sources 1 source "main" = .ok out ∧ out.toList.getLast? = some '\n' ∧
      ¬ ['\r', '\n'] <:+: out.toList := by
  intro sources source out
  let e : Expanded :=
    ⟨[beginLine ['p'], ['b'], ['\r', 'c'], endLine ['p'], ['a'], [],
      repeatedLine "#include <p>".toList], ["p"]⟩
  have he : expandFile sources 1 2 "main" (lines source.toList) [] = .ok e := by decide +kernel
  have hout : expand sources 1 source "main" = .ok out := by
    rw [expand, he]
    rfl
  have hfile : sources.get? "p" = some "b\n\rc" := by decide +kernel
  have hreached : ∀ file, Reachable sources source file → file = "p" := by
    have hsource : includesOf source = ["p", "p"] := by decide +kernel
    have hnested : includesOf "b\n\rc" = [] := by decide +kernel
    intro file hreached
    induction hreached with
    | direct hpath => simpa [hsource] using hpath
    | nested _ htext hpath ih =>
        rw [ih, hfile, Option.some.injEq] at htext
        rw [← htext, hnested] at hpath
        cases hpath
  obtain ⟨hend, -, hnone⟩ := expand_line_ends hout
  refine ⟨hout, hend.resolve_left (by decide +kernel), hnone (by decide +kernel) ?_⟩
  intro file hpath
  rw [hreached file hpath, hfile]
  refine ⟨by decide +kernel, fun text htext => ?_⟩
  rw [← Option.some.inj htext]
  decide +kernel

/-- A last line without an end, and a line before a feed, keep a return that then stands before a
feed. -/
theorem return_before_feed :
    expand ∅ 32 "a\r" "main" = .ok "a\r\n" ∧ expand ∅ 32 "a\r\r\n" "main" = .ok "a\r\n" ∧
      ['\r', '\n'] <:+: "a\r\n".toList := by
  have hinfix : ['\r', '\n'] <:+: "a\r\n".toList := ⟨['a'], [], rfl⟩
  exact ⟨by decide +kernel, by decide +kernel, hinfix⟩

end Shader

end Shaderworks
