/-
**An expanded text asks for nothing.**

What an expansion writes is lines that are no directives, and comments.  None of them becomes a
directive when the text is read again, although a line may then lose a return at its end: what
follows a directive does not matter, so what is a directive without the return is one with it.  To
expand the text once more is therefore to read it and to write it, whatever the sources and the limit.

Main results:

* `Expands.asked_out` — expanded lines ask for nothing;
* `asked_map_trimReturn` — lines that ask for nothing ask for nothing without the returns at their
  ends;
* `expand_of_includesOf` — a source that asks for nothing is read and written;
* `expand_expanded` — **an expanded text is such a source.**
-/

import Shaderworks.Proofs.Shader.Grammar
import Shaderworks.Proofs.Shader.Reachability
import Mathlib.Data.List.Basic

set_option autoImplicit false

namespace Shaderworks.Shader

open Text

variable {sources : Sources}

/-! ### Lines that ask for nothing -/

theorem asked_append (ls ms : List (List Char)) : asked (ls ++ ms) = asked ls ++ asked ms := by
  simp [asked]

theorem asked_eq_nil_iff {ls : List (List Char)} :
    asked ls = [] ↔ ∀ line ∈ ls, includePath? line = none := by
  simp [asked]

/-- A line that begins with a slash is no directive. -/
theorem includePath?_slash (rest : List Char) : includePath? ('/' :: rest) = none := by
  refine includePath?_of_not_hash ?_
  rw [dropBlank, List.dropWhile_cons_of_neg (by decide)]
  simp

/-- The comments that an expansion writes are no directives. -/
theorem includePath?_repeatedLine (line : List Char) : includePath? (repeatedLine line) = none :=
  includePath?_slash _

theorem includePath?_beginLine (path : List Char) : includePath? (beginLine path) = none :=
  includePath?_slash _

theorem includePath?_endLine (path : List Char) : includePath? (endLine path) = none :=
  includePath?_slash _

/-- **Expanded lines ask for nothing.** -/
theorem Expands.asked_out {seen seen' : List String} {ls out : List (List Char)}
    (h : Expands sources seen ls out seen') : asked out = [] := by
  induction h with
  | nil => rfl
  | plain hplain hrest ih =>
      rw [asked_cons_none hplain]
      exact ih
  | repeated hpath hseen hrest ih =>
      rw [asked_cons_none (includePath?_repeatedLine _)]
      exact ih
  | nested hpath hseen htext hinner hrest ihinner ihrest =>
      rw [List.cons_append, asked_cons_none (includePath?_beginLine _), asked_append, ihinner,
        asked_cons_none (includePath?_endLine _)]
      exact ihrest

/-- A line that is no directive is none without a return at its end. -/
theorem includePath?_trimReturn {line : List Char} (h : includePath? line = none) :
    includePath? (trimReturn line) = none := by
  obtain ⟨ending, hline⟩ := trimReturn_prefix line
  cases hpath : includePath? (trimReturn line) with
  | none => rfl
  | some path =>
      have hwhole := includePath?_append hpath ending
      rw [hline, h] at hwhole
      cases hwhole

/-- Lines that ask for nothing ask for nothing without the returns at their ends. -/
theorem asked_map_trimReturn {ls : List (List Char)} (h : asked ls = []) :
    asked (ls.map trimReturn) = [] := by
  rw [asked_eq_nil_iff] at h ⊢
  intro line hline
  obtain ⟨whole, hwhole, rfl⟩ := List.mem_map.1 hline
  exact includePath?_trimReturn (h whole hwhole)

/-! ### Reading and writing -/

/-- Lines that ask for nothing are kept, whatever becomes of nested files. -/
theorem expandLines_of_asked
    {nested : String → List (List Char) → List String → Except IncludeFault Expanded}
    {origin : String} {ls : List (List Char)} (h : asked ls = []) :
    ∀ n seen, expandLines sources nested origin n ls seen = .ok ⟨ls, seen⟩ := by
  rw [asked_eq_nil_iff] at h
  induction ls with
  | nil => exact fun n seen => rfl
  | cons line rest ih =>
      intro n seen
      obtain ⟨hline, hrest⟩ := List.forall_mem_cons.1 h
      rw [expandLines_plain hline, ih hrest]
      rfl

/-- A source that asks for nothing is read and written. -/
theorem expand_of_includesOf {source : String} (h : includesOf source = []) (limit : Nat)
    (origin : String) :
    expand sources limit source origin = .ok (String.ofList (unlines (lines source.toList))) := by
  rw [includesOf_eq_asked] at h
  rw [expand, expandFile, expandLines_of_asked h]
  rfl

/-- **An expanded text asks for nothing.**  Expanded again, with any sources and any limit, it loses
the returns before its feeds, one before each, and nothing else; so it stays as it is if it has none. -/
theorem expand_expanded {limit : Nat} {source origin out : String}
    (h : expand sources limit source origin = .ok out) :
    includesOf out = [] ∧
      ∀ (sources' : Sources) (limit' : Nat) (origin' : String),
        expand sources' limit' out origin' = .ok (String.ofList (bareFeeds out.toList)) ∧
          (¬ ['\r', '\n'] <:+: out.toList → expand sources' limit' out origin' = .ok out) := by
  obtain ⟨ls, seen, hexpands, rfl⟩ := expands_of_expand h
  have hfeed : ∀ line ∈ ls, '\n' ∉ line :=
    hexpands.feed_not_mem fun line hline => feed_not_mem_of_mem_lines hline
  have hlines : lines (String.ofList (unlines ls)).toList = ls.map trimReturn := by
    rw [String.toList_ofList, lines_unlines_eq hfeed]
  have hasked : includesOf (String.ofList (unlines ls)) = [] := by
    rw [includesOf_eq_asked, hlines]
    exact asked_map_trimReturn hexpands.asked_out
  refine ⟨hasked, fun sources' limit' origin' => ?_⟩
  have hagain : expand sources' limit' (String.ofList (unlines ls)) origin' =
      .ok (String.ofList (bareFeeds (String.ofList (unlines ls)).toList)) := by
    rw [expand_of_includesOf hasked, hlines, String.toList_ofList, bareFeeds_unlines hfeed]
  refine ⟨hagain, fun hnone => ?_⟩
  rw [hagain, bareFeeds_eq_self hnone, String.ofList_toList]

/-- A source with a line that ends in two returns: the first expansion takes one of them, the second
the other, and a third changes nothing.  Only the first needs the file. -/
theorem expand_expanded_returns :
    let sources : Sources := NameMap.ofList [("p", "b\n")]
    let source := "#include <p>\na\r\r\n#include <p>\n"
    let once := "// BEGIN INCLUDE p\nb\n// END INCLUDE p\na\r\n// #include <p> [already included]\n"
    let twice := "// BEGIN INCLUDE p\nb\n// END INCLUDE p\na\n// #include <p> [already included]\n"
    expand sources 1 source "main" = .ok once ∧ includesOf once = [] ∧
      expand ∅ 0 once "once" = .ok twice ∧ expand ∅ 0 twice "twice" = .ok twice := by
  intro sources source once twice
  let e : Expanded :=
    ⟨[beginLine ['p'], ['b'], endLine ['p'], ['a', '\r'], repeatedLine "#include <p>".toList], ["p"]⟩
  have he : expandFile sources 1 2 "main" (lines source.toList) [] = .ok e := by decide +kernel
  have honce : expand sources 1 source "main" = .ok once := by
    rw [expand, he]
    rfl
  obtain ⟨hasked, hagain⟩ := expand_expanded honce
  have hbare : bareFeeds once.toList = twice.toList := by decide +kernel
  have htwice : expand ∅ 0 once "once" = .ok twice := by
    rw [(hagain ∅ 0 "once").1, hbare, String.ofList_toList]
  have hnone : ¬ ['\r', '\n'] <:+: twice.toList := by
    rw [← occursIn_iff]
    decide +kernel
  exact ⟨honce, hasked, htwice, ((expand_expanded htwice).2 ∅ 0 "twice").2 hnone⟩

end Shaderworks.Shader
