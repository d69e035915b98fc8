/-
**The structure of an expansion.**

Which files an expanded text is made of, and which of their lines stand where, can be read from the
text itself, provided that no line of the files passes for a mark.  The marks are nested, no file
has two blocks, and what is left of a block when the blocks inside are taken out is the text of the
file line by line: a directive is missing where a block stands, and is a comment where the block of
its file began earlier.

Main definitions:

* `Stands` — how a line of a file shows at the top of its block;
* `Written` — the lines of a file, as they show at the top of its block;
* `Structured` — a source with the blocks of its includes.

Main results:

* `Expands.written` — every list of lines shows at the top of what it expands to;
* `Expands.block` — so does every file at the top of its block;
* `structured_of_expand` — a successful expansion is structured.
-/

import Shaderworks.Proofs.Shader.Derivation
import Shaderworks.Proofs.Shader.Marks
import Mathlib.Data.List.Forall2
import Mathlib.Data.List.Nodup

set_option autoImplicit false

namespace Shaderworks.Shader

open Text

/-! ### Lines and what they become -/

/-- How a line of a file shows at the top of its block, given all the lines before. -/
inductive Stands : List Char → List (List Char) × Item → Prop
  /-- A line that is no directive stands as it is. -/
  | plain {line : List Char} {before : List (List Char)} (hplain : includePath? line = none) :
      Stands line (before, .line line)
  /-- A directive is a comment if the block of its path began before. -/
  | repeated {line path : List Char} {before : List (List Char)}
      (hpath : includePath? line = some path) (hbefore : beginLine path ∈ before) :
      Stands line (before, .line (repeatedLine line))
  /-- Else the block of its path stands there. -/
  | block {line path : List Char} {before : List (List Char)}
      (hpath : includePath? line = some path) (hbefore : beginLine path ∉ before) :
      Stands line (before, .block path)

/-- The lines of a file, each as it shows at the top of its block. -/
def Written (ls before body : List (List Char)) : Prop :=
  List.Forall₂ Stands ls (topLevel before 0 body)

/-- Lines in which a source stands with the blocks of its includes. -/
structure Structured (sources : Sources) (source ls : List (List Char)) : Prop where
  /-- The marks are nested, and every end has the path of its beginning. -/
  nested : openBlocks [] ls = some []
  /-- No path has two blocks. -/
  once : (begun ls).Nodup
  /-- Outside the blocks stands the source. -/
  written : Written source [] ls
  /-- Every block ends, and outside the blocks in it stands the text of its path. -/
  block : ∀ front path rest, ls = front ++ beginLine path :: rest →
    ∃ body post text, rest = body ++ endLine path :: post ∧ openBlocks [] body = some [] ∧
      sources.get? (String.ofList path) = some text ∧
      Written (lines text.toList) (front ++ [beginLine path]) body

/-! ### Sources without marks -/

theorem Unmarked.tail {line : List Char} {ls : List (List Char)} (h : Unmarked (line :: ls)) :
    Unmarked ls :=
  fun other hother => h other (List.mem_cons_of_mem _ hother)

/-- Sources of which no line starts like a mark. -/
def Markless (sources : Sources) : Prop :=
  ∀ path text, sources.get? path = some text → Unmarked (lines text.toList)

theorem markless_of_entries {sources : Sources}
    (h : ∀ entry ∈ sources.entries, Unmarked (lines entry.2.toList)) : Markless sources :=
  fun _ _ htext => h _ (mem_of_lookup htext)

/-- A directive does not begin like the rest of a mark. -/
theorem head?_of_includePath? {line path : List Char} (h : includePath? line = some path) :
    line.head? ≠ some 'B' ∧ line.head? ≠ some 'E' := by
  obtain ⟨rest, hrest, -⟩ := includePath?_eq_some h
  -- A letter is no blank, so it would stand where the `#` is.
  have hletter : ∀ c, isBlank c = false → c ≠ '#' → line.head? ≠ some c := by
    intro c hblank hc hhead
    cases line with
    | nil => cases hhead
    | cons d line =>
        rw [List.head?_cons, Option.some.injEq] at hhead
        rw [hhead, dropBlank, List.dropWhile_cons_of_neg (by rw [hblank]; decide)] at hrest
        exact hc (List.cons.inj hrest).1
  exact ⟨hletter 'B' (by decide) (by decide), hletter 'E' (by decide) (by decide)⟩

/-! ### The paths expanded so far -/

/-- The paths expanded so far are those whose blocks have begun. -/
def Tracks (seen : List String) (before : List (List Char)) : Prop :=
  ∀ path, String.ofList path ∈ seen ↔ beginLine path ∈ before

namespace Tracks

variable {seen : List String} {before : List (List Char)}

theorem nil : Tracks [] [] := fun path => by simp

theorem append (h : Tracks seen before) (ls : List (List Char)) :
    Tracks ((begun ls).reverse.map String.ofList ++ seen) (before ++ ls) := by
  intro path
  have hbegun : String.ofList path ∈ (begun ls).reverse.map String.ofList ↔
      beginLine path ∈ ls := by
    rw [← mem_begun_iff]
    simp [String.ofList_inj]
  rw [List.mem_append, List.mem_append, h path, hbegun, or_comm]

theorem text (h : Tracks seen before) {line : List Char} (hline : markOf line = .text) :
    Tracks seen (before ++ [line]) := by
  have happend := h.append [line]
  rwa [begun_text _ hline] at happend

theorem begins (h : Tracks seen before) (path : List Char) :
    Tracks (String.ofList path :: seen) (before ++ [beginLine path]) := by
  have happend := h.append [beginLine path]
  rwa [begun_beginLine] at happend

theorem ends (h : Tracks seen before) (path : List Char) :
    Tracks seen (before ++ [endLine path]) := by
  have happend := h.append [endLine path]
  rwa [begun_endLine] at happend

end Tracks

namespace Expands

variable {sources : Sources} {seen seen' : List String} {ls out : List (List Char)}

/-- No path is expanded twice. -/
theorem nodup (h : Expands sources seen ls out seen') (hseen : seen.Nodup) : seen'.Nodup := by
  induction h with
  | nil => exact hseen
  | plain hplain hrest ih => exact ih hseen
  | repeated hpath hmem hrest ih => exact ih hseen
  | nested hpath hmem htext hinner hrest ihinner ihrest =>
      exact ihrest (ihinner (List.nodup_cons.2 ⟨hmem, hseen⟩))

/-- What a list of lines without marks expands to is nested, if no file holds a mark. -/
theorem nested_out (hfiles : Markless sources) (h : Expands sources seen ls out seen')
    (hls : Unmarked ls) : Nested out := by
  induction h with
  | nil => exact .nil
  | plain hplain hrest ih =>
      exact .text (markOf_of_unmarked hls List.mem_cons_self) (ih hls.tail)
  | repeated hpath hmem hrest ih =>
      exact .text (markOf_repeatedLine (head?_of_includePath? hpath)) (ih hls.tail)
  | nested hpath hmem htext hinner hrest ihinner ihrest =>
      exact .block (ihinner (hfiles _ _ htext)) (ihrest hls.tail)

/-- The paths that are expanded on the way are those whose blocks begin. -/
theorem seen_eq (hfiles : Markless sources) (h : Expands sources seen ls out seen')
    (hls : Unmarked ls) : seen' = (begun out).reverse.map String.ofList ++ seen := by
  induction h with
  | nil => rfl
  | plain hplain hrest ih =>
      rw [begun_text _ (markOf_of_unmarked hls List.mem_cons_self)]
      exact ih hls.tail
  | repeated hpath hmem hrest ih =>
      rw [begun_text _ (markOf_repeatedLine (head?_of_includePath? hpath))]
      exact ih hls.tail
  | nested hpath hmem htext hinner hrest ihinner ihrest =>
      rw [ihrest hls.tail, ihinner (hfiles _ _ htext), List.cons_append, begun_beginLine,
        begun_append, begun_endLine]
      simp

/-- The paths expanded after some lines are those whose blocks have begun by then. -/
theorem tracks (hfiles : Markless sources) (h : Expands sources seen ls out seen')
    (hls : Unmarked ls) {before : List (List Char)} (hbefore : Tracks seen before) :
    Tracks seen' (before ++ out) := by
  rw [h.seen_eq hfiles hls]
  exact hbefore.append out

/-- The same after a whole block. -/
theorem tracks_block (hfiles : Markless sources) {path : List Char}
    (h : Expands sources (String.ofList path :: seen) ls out seen') (hls : Unmarked ls)
    {before : List (List Char)} (hbefore : Tracks seen before) :
    Tracks seen' (before ++ (beginLine path :: out ++ [endLine path])) := by
  have hblock := (h.tracks hfiles hls (hbefore.begins path)).ends path
  simpa using hblock

/-- **Every list of lines shows at the top of what it expands to.** -/
theorem written (hfiles : Markless sources) (h : Expands sources seen ls out seen')
    (hls : Unmarked ls) : ∀ before, Tracks seen before → Written ls before out := by
  induction h with
  | nil => exact fun before _ => .nil
  | plain hplain hrest ih =>
      intro before hbefore
      have hline := markOf_of_unmarked hls List.mem_cons_self
      rw [Written, topLevel_text hline]
      exact .cons (.plain hplain) (ih hls.tail _ (hbefore.text hline))
  | repeated hpath hmem hrest ih =>
      intro before hbefore
      have hline := markOf_repeatedLine (head?_of_includePath? hpath)
      rw [Written, topLevel_text hline]
      exact .cons (.repeated hpath ((hbefore _).1 hmem)) (ih hls.tail _ (hbefore.text hline))
  | nested hpath hmem htext hinner hrest ihinner ihrest =>
      intro before hbefore
      have hfile := hfiles _ _ htext
      rw [Written, (hinner.nested_out hfiles hfile).topLevel_block]
      exact .cons (.block hpath fun hbegan => hmem ((hbefore _).2 hbegan))
        (ihrest hls.tail _ (hinner.tracks_block hfiles hfile hbefore))

/-- **Every block ends, and the text of its path shows at its top.** -/
theorem block (hfiles : Markless sources) (h : Expands sources seen ls out seen')
    (hls : Unmarked ls) : ∀ before, Tracks seen before →
      ∀ front path rest, out = front ++ beginLine path :: rest →
        ∃ body post text, rest = body ++ endLine path :: post ∧ openBlocks [] body = some [] ∧
          sources.get? (String.ofList path) = some text ∧
          Written (lines text.toList) (before ++ front ++ [beginLine path]) body := by
  induction h with
  | nil =>
      intro before hbefore front path rest hout
      exact absurd hout.symm (by simp)
  | plain hplain hrest ih =>
      intro before hbefore front path rest hout
      have hline := markOf_of_unmarked hls List.mem_cons_self
      obtain ⟨front, rfl, hbehind⟩ := begins_behind_text hline hout
      have hblock := ih hls.tail _ (hbefore.text hline) front path rest hbehind
      simpa using hblock
  | repeated hpath hmem hrest ih =>
      intro before hbefore front path rest hout
      have hline := markOf_repeatedLine (head?_of_includePath? hpath)
      obtain ⟨front, rfl, hbehind⟩ := begins_behind_text hline hout
      have hblock := ih hls.tail _ (hbefore.text hline) front path rest hbehind
      simpa using hblock
  | @nested line path text ls inner out seen mid seen' hpath hmem htext hinner hrest ihinner
      ihrest =>
      intro before hbefore front path' rest hout
      have hfile := hfiles _ _ htext
      -- The beginning is that of this block, or one inside it, or one behind it.
      rcases begins_in_block hout with
        ⟨rfl, rfl, rfl⟩ | ⟨front, inside, rfl, hbody, rfl⟩ | ⟨front, rfl, hafter⟩
      · refine ⟨inner, out, text, rfl, (hinner.nested_out hfiles hfile).openBlocks_eq [], htext, ?_⟩
        rw [List.append_nil]
        exact hinner.written hfiles hfile _ (hbefore.begins path')
      · obtain ⟨body, post, text', rfl, hrest'⟩ :=
          ihinner hfile _ (hbefore.begins path) front path' inside hbody
        refine ⟨body, post ++ endLine path :: out, text', by simp, ?_⟩
        simpa using hrest'
      · have hblock := ihrest hls.tail _ (hinner.tracks_block hfiles hfile hbefore) front path' rest
          hafter
        simpa using hblock

end Expands

/-- **A successful expansion is structured**, unless a line of the source or of a file passes for a
mark. -/
theorem structured_of_expand {sources : Sources} {limit : Nat} {source origin out : String}
    (hsource : Unmarked (lines source.toList)) (hfiles : Markless sources)
    (h : expand sources limit source origin = .ok out) :
    ∃ ls, out.toList.splitOn '\n' = ls ++ [[]] ∧
      Structured sources (lines source.toList) ls := by
  obtain ⟨ls, seen, hexpands, rfl⟩ := expands_of_expand h
  refine ⟨ls, ?_, ?_⟩
  · rw [String.toList_ofList]
    exact splitOn_unlines (hexpands.feed_not_mem fun line hline => feed_not_mem_of_mem_lines hline)
  · constructor
    · exact (hexpands.nested_out hfiles hsource).openBlocks_eq []
    · have hseen := hexpands.nodup .nil
      rw [hexpands.seen_eq hfiles hsource, List.append_nil] at hseen
      exact List.nodup_reverse.1 (List.Nodup.of_map _ hseen)
    · exact hexpands.written hfiles hsource [] .nil
    · exact hexpands.block hfiles hsource [] .nil

/-- A source with an include that includes another, and then asks for that one itself. -/
theorem structured_of_expand_nested :
    let sources : Sources :=
      NameMap.ofList [("a", "#include \"b\"\nfloat a;\n"), ("b", "float b;\r\n")]
    let source := "#include \"a\"\n#include \"b\"\nvoid main() {}\n"
    let out := "// BEGIN INCLUDE a\n// BEGIN INCLUDE b\nfloat b;\n// END INCLUDE b\nfloat a;\n" ++
      "// END INCLUDE a\n// #include \"b\" [already included]\nvoid main() {}\n"
    Unmarked (lines source.toList) ∧ Markless sources ∧
      expand sources 32 source "main" = .ok out ∧
      ∃ ls, out.toList.splitOn '\n' = ls ++ [[]] ∧
        Structured sources (lines source.toList) ls := by
  intro sources source out
  have hsource : Unmarked (lines source.toList) := by unfold Unmarked; decide
  have hfiles : Markless sources := markless_of_entries (by unfold Unmarked; decide)
  have hexpand : expand sources 32 source "main" = .ok out := by decide +kernel
  exact ⟨hsource, hfiles, hexpand, structured_of_expand hsource hfiles hexpand⟩

end Shaderworks.Shader
