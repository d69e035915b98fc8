/-
**How often a line of a file is written.**

Each path is expanded once at most, so the text of a file is written once for being included.  A
shader may be one of the files that can be included, though, and its own text is written as the
source, whether it is included or not.  If an include leads back to it, its lines are written twice.

Main definitions:

* `copies` — how often a line occurs in the text of a path.

Main results:

* `Expands.count_add` — the lines written are those of the source and of the paths expanded on the
  way;
* `count_le_one_iff` — **a line of one file is written once at most, unless it is one of the shader
  itself and an include leads back to the shader**;
* `written_twice_in_circle` — then it is written twice.
-/

import Shaderworks.Proofs.Shader.Completeness
import Shaderworks.Proofs.Shader.Structure
import Mathlib.Algebra.Order.BigOperators.Group.List
import Mathlib.Algebra.Order.Ring.Nat

set_option autoImplicit false

namespace Shaderworks.Shader

open Text

variable {sources : Sources} {line : List Char}

/-! ### Lines of files -/

/-- How often a line occurs in the text of a path. -/
def copies (sources : Sources) (line : List Char) (path : String) : Nat :=
  match sources.get? path with
  | some text => (lines text.toList).count line
  | none => 0

theorem copies_of_get? {path text : String} (h : sources.get? path = some text) :
    copies sources line path = (lines text.toList).count line := by
  rw [copies, h]

/-- A line occurs in all files together as often as in each, summed up. -/
theorem count_files (sources : Sources) (line : List Char) :
    (sources.entries.flatMap fun entry => lines entry.2.toList).count line =
      (sources.names.map (copies sources line)).sum := by
  rw [List.count_flatMap, NameMap.names, List.map_map]
  congr 1
  refine List.map_congr_left fun entry hentry => ?_
  exact (copies_of_get? (NameMap.get?_of_mem hentry)).symm

/-- Different paths with texts hold a line no more often than all files together. -/
theorem sum_copies_le (line : List Char) {paths : List String} (hnodup : paths.Nodup)
    (htexts : ∀ path ∈ paths, (sources.get? path).isSome) :
    (paths.map (copies sources line)).sum ≤ (sources.names.map (copies sources line)).sum := by
  have hsub : paths ⊆ sources.names := fun path hpath =>
    NameMap.isSome_get?_iff.1 (htexts path hpath)
  obtain ⟨paths', hperm, hsublist⟩ := hnodup.subperm hsub
  rw [← (hperm.map _).sum_nat]
  exact (hsublist.map _).sum_le_sum fun _ _ => Nat.zero_le _

/-! ### Lines that are written -/

theorem prefix_repeatedLine (line : List Char) : "// ".toList <+: repeatedLine line :=
  ⟨line ++ " [already included]".toList, rfl⟩

theorem prefix_beginLine (path : List Char) : "// ".toList <+: beginLine path :=
  ⟨"BEGIN INCLUDE ".toList ++ path, rfl⟩

theorem prefix_endLine (path : List Char) : "// ".toList <+: endLine path :=
  ⟨"END INCLUDE ".toList ++ path, rfl⟩

/-- **The lines written are those of the source and of the paths expanded on the way,** comments
and directives apart. -/
theorem Expands.count_add {seen seen' : List String} {ls out : List (List Char)}
    (hplain : includePath? line = none) (hcomment : ¬ "// ".toList <+: line)
    (h : Expands sources seen ls out seen') :
    out.count line + (seen.map (copies sources line)).sum =
      ls.count line + (seen'.map (copies sources line)).sum := by
  -- What an expansion adds are comments, and what it takes out are directives.
  have hadded : ∀ {added : List Char} {rest : List (List Char)}, "// ".toList <+: added →
      (added :: rest).count line = rest.count line := by
    intro added rest hprefix
    refine List.count_cons_of_ne fun heq => ?_
    rw [heq] at hprefix
    exact hcomment hprefix
  have hdirective : ∀ {directive path : List Char} {rest : List (List Char)},
      includePath? directive = some path → (directive :: rest).count line = rest.count line := by
    intro directive path rest hpath
    refine List.count_cons_of_ne fun heq => ?_
    rw [heq, hplain] at hpath
    cases hpath
  induction h with
  | nil => rfl
  | plain hline hrest ih =>
      rw [List.count_cons, List.count_cons]
      omega
  | repeated hpath hseen hrest ih =>
      rw [hadded (prefix_repeatedLine _), hdirective hpath]
      exact ih
  | nested hpath hseen htext hinner hrest ihinner ihrest =>
      rw [List.cons_append, hadded (prefix_beginLine _), List.count_append,
        hadded (prefix_endLine _), hdirective hpath]
      rw [List.map_cons, List.sum_cons, copies_of_get? htext] at ihinner
      omega

/-- **A line that occurs once among all files is written once at most, unless it is one of the
shader itself and an include leads back to the shader.** -/
theorem count_le_one_iff {limit : Nat} {shader text origin out : String}
    (hshader : sources.get? shader = some text)
    (hexpand : expand sources limit text origin = .ok out) (hplain : includePath? line = none)
    (hcomment : ¬ "// ".toList <+: line)
    (honce : (sources.entries.flatMap fun entry => lines entry.2.toList).count line = 1) :
    ∃ ls, out.toList.splitOn '\n' = ls ++ [[]] ∧
      (ls.count line ≤ 1 ↔ ¬ (line ∈ lines text.toList ∧ Reachable sources text shader)) := by
  obtain ⟨ls, seen, hexpands, rfl⟩ := expands_of_expand hexpand
  refine ⟨ls, ?_, ?_⟩
  · rw [String.toList_ofList]
    exact splitOn_unlines (hexpands.feed_not_mem fun other hother => feed_not_mem_of_mem_lines hother)
  · have hcount := hexpands.count_add hplain hcomment
    rw [List.map_nil, List.sum_nil, ← copies_of_get? hshader] at hcount
    have hnodup := hexpands.nodup .nil
    have htexts : ∀ path ∈ seen, (sources.get? path).isSome := fun path hpath =>
      hexpands.isSome_of_new hpath List.not_mem_nil
    rw [count_files] at honce
    have hfiles := sum_copies_le line hnodup htexts
    rw [← hexpands.mem_iff_reachable, ← List.count_pos_iff, ← copies_of_get? hshader]
    by_cases hback : shader ∈ seen
    · -- The shader is one of the expanded files, so its lines are counted twice.
      have htwice : copies sources line shader ≤ (seen.map (copies sources line)).sum :=
        List.le_sum_of_mem (List.mem_map_of_mem hback)
      constructor
      · rintro hle ⟨hpos, -⟩
        omega
      · intro hnot
        have hzero : ¬ 0 < copies sources line shader := fun hpos => hnot ⟨hpos, hback⟩
        omega
    · -- The shader is one more of the files, next to the expanded ones.
      have hall := sum_copies_le line (List.nodup_cons.2 ⟨hback, hnodup⟩)
        (List.forall_mem_cons.2 ⟨by rw [hshader]; rfl, htexts⟩)
      rw [List.map_cons, List.sum_cons] at hall
      exact ⟨fun _ hboth => hback hboth.2, fun _ => by omega⟩

/-- Two files that ask for each other: a line of the second one is written once. -/
theorem count_le_one_iff_circle :
    let text := "#include <a>\nfloat m;\n"
    let sources : Sources := NameMap.ofList
      [("a", "#include <b>\nfloat a;\n"), ("b", "#include <a>\nfloat b;\n"), ("main", text)]
    let out := "// BEGIN INCLUDE a\n// BEGIN INCLUDE b\n// #include <a> [already included]\n" ++
      "float b;\n// END INCLUDE b\nfloat a;\n// END INCLUDE a\nfloat m;\n"
    let line := "float b;".toList
    sources.get? "main" = some text ∧ expand sources 32 text "main" = .ok out ∧
      includePath? line = none ∧ ¬ "// ".toList <+: line ∧
      (sources.entries.flatMap fun entry => lines entry.2.toList).count line = 1 ∧
      ∃ ls, out.toList.splitOn '\n' = ls ++ [[]] ∧ ls.count line ≤ 1 := by
  intro text sources out line
  have hshader : sources.get? "main" = some text := by decide
  have hexpand : expand sources 32 text "main" = .ok out := by decide +kernel
  have hplain : includePath? line = none := by decide
  have hcomment : ¬ "// ".toList <+: line := by decide
  have honce : (sources.entries.flatMap fun entry => lines entry.2.toList).count line = 1 := by
    decide
  have hother : line ∉ lines text.toList := by decide
  obtain ⟨ls, hls, hiff⟩ := count_le_one_iff hshader hexpand hplain hcomment honce
  exact ⟨hshader, hexpand, hplain, hcomment, honce, ls, hls, hiff.2 fun hboth => hother hboth.1⟩

/-- **A shader that an include leads back to is written twice:** as the source, and as a file that is
included. -/
theorem written_twice_in_circle :
    let text := "#include \"b\"\nfloat r;\n"
    let sources : Sources := NameMap.ofList [("b", "#include \"r\"\n"), ("r", text)]
    let line := "float r;".toList
    sources.get? "r" = some text ∧ includePath? line = none ∧ ¬ "// ".toList <+: line ∧
      (sources.entries.flatMap fun entry => lines entry.2.toList).count line = 1 ∧
      ∃ out ls, expand sources 32 text "r" = .ok out ∧ out.toList.splitOn '\n' = ls ++ [[]] ∧
        ls.count line = 2 := by
  intro text sources line
  let ls : List (List Char) :=
    [beginLine ['b'], beginLine ['r'], repeatedLine "#include \"b\"".toList, line, endLine ['r'],
      endLine ['b'], line]
  have hexpand : expand sources 32 text "r" = .ok (String.ofList (unlines ls)) := by decide +kernel
  have hfeed : ∀ l ∈ ls, '\n' ∉ l := by decide
  refine ⟨by decide, by decide, by decide, by decide, _, ls, hexpand, ?_, by decide⟩
  rw [String.toList_ofList]
  exact splitOn_unlines hfeed

end Shaderworks.Shader
