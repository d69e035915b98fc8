/-
**What decides whether an expansion succeeds.**

Files nest no deeper than there are files, for the ones that are open at a time are different.  So a
limit that is no smaller than their number is never met, and then nothing but a missing text can stop
an expansion: it succeeds exactly if every path has a text that the source reaches.

Main definitions:

* `NamesMissing` — a fault that names a reachable path without a text;
* `Covers` — expanded lines that hold the reachable paths.

Main results:

* `namesMissing_of_expand` — with such a limit, a fault names a missing path;
* `covers_of_expand` — a success covers the reachable paths;
* `expand_ok_iff_reachable` — **both, and which of the two it is**.
-/

import Shaderworks.Proofs.Shader.Descent

set_option autoImplicit false

namespace Shaderworks.Shader

open Text

variable {sources : Sources} {limit : Nat} {source origin : String}

/-- A fault that names a reachable path without a text, and a line that asks for it: a line of the
source, or of the text of a reachable path. -/
def NamesMissing (sources : Sources) (source origin : String) (fault : IncludeFault) : Prop :=
  ∃ path file k text, fault = .notFound path file (k + 1) ∧ Reachable sources source path ∧
    sources.get? path = none ∧ AsksAt (lines text.toList) k path ∧
    ((file = origin ∧ text = source) ∨
      (Reachable sources source file ∧ sources.get? file = some text))

/-- Expanded lines that hold the reachable paths, all of which have a text. -/
structure Covers (sources : Sources) (source : String) (e : Expanded) : Prop where
  /-- The paths that are expanded are the reachable ones. -/
  mem_iff : ∀ path, path ∈ e.seen ↔ Reachable sources source path
  /-- Each of them has a text. -/
  isSome : ∀ path ∈ e.seen, (sources.get? path).isSome
  /-- The block of each begins among the lines. -/
  block : ∀ path ∈ e.seen, beginLine path.toList ∈ e.out

/-- With a limit no smaller than the number of files, a fault names a missing path. -/
theorem namesMissing_of_expand (hlimit : sources.size ≤ limit) {fault : IncludeFault}
    (h : expand sources limit source origin = .error fault) :
    NamesMissing sources source origin fault := by
  obtain ⟨chain, file, ls, hdescent, hnodup, ⟨-, hlength⟩ | ⟨k, path, hfault, hasks, hnone⟩⟩ :=
    descent_of_expand h
  · obtain ⟨-, -, htexts, -⟩ := hdescent.isChain
    have hle := length_le_size hnodup htexts
    omega
  · have hincl := inclusive_reachable sources source
    rcases hdescent.reaches hincl fun p hp => .direct hp with
      ⟨hfile, rfl⟩ | ⟨text, hfile, htext, rfl⟩
    · exact ⟨path, file, k, source, hfault, .direct hasks.mem_asked, hnone, hasks,
        .inl ⟨hfile, rfl⟩⟩
    · exact ⟨path, file, k, text, hfault, hincl _ _ hfile htext _ hasks.mem_asked, hnone, hasks,
        .inr ⟨hfile, htext⟩⟩

/-- A success covers the reachable paths. -/
theorem covers_of_expand {out : String} (h : expand sources limit source origin = .ok out) :
    ∃ e, expandFile sources limit (limit + 1) origin (lines source.toList) [] = .ok e ∧
      out = String.ofList (unlines e.out) ∧ Covers sources source e := by
  obtain ⟨e, he, rfl⟩ := map_eq_ok h
  have hexpands := expands_of_expandFile _ _ _ _ _ he
  refine ⟨e, he, rfl, hexpands.mem_iff_reachable, ?_, ?_⟩
  · intro path hpath
    exact hexpands.isSome_of_new hpath List.not_mem_nil
  · intro path hpath
    exact hexpands.beginLine_mem path hpath List.not_mem_nil

/-- **An expansion succeeds exactly if every reachable path has a text,** when the limit is no
smaller than the number of files.  Then the reachable paths are those expanded, and their blocks are
in the text.  Otherwise the fault names a reachable path without a text, and a line that asks for it:
a line of the source, or of the text of a reachable path. -/
theorem expand_ok_iff_reachable (hlimit : sources.size ≤ limit) :
    ((∃ out, expand sources limit source origin = .ok out) ↔
        ∀ path, Reachable sources source path → (sources.get? path).isSome) ∧
      (∀ out, expand sources limit source origin = .ok out →
        ∃ e, expandFile sources limit (limit + 1) origin (lines source.toList) [] = .ok e ∧
          out = String.ofList (unlines e.out) ∧ Covers sources source e) ∧
      ∀ fault, expand sources limit source origin = .error fault →
        NamesMissing sources source origin fault := by
  refine ⟨⟨?_, ?_⟩, fun out => covers_of_expand, fun fault => namesMissing_of_expand hlimit⟩
  · rintro ⟨out, hout⟩ path hpath
    obtain ⟨e, -, -, hcovers⟩ := covers_of_expand hout
    exact hcovers.isSome path ((hcovers.mem_iff path).2 hpath)
  · intro htexts
    cases hexpand : expand sources limit source origin with
    | ok out => exact ⟨out, rfl⟩
    | error fault =>
        obtain ⟨path, -, -, -, -, hpath, hnone, -⟩ := namesMissing_of_expand hlimit hexpand
        have htext := htexts path hpath
        rw [hnone] at htext
        cases htext

/-- Two files that ask for each other, first without a fault, then with a missing path as well. -/
theorem expand_ok_iff_reachable_circle :
    let source := "#include \"a\"\n"
    let sources : Sources := NameMap.ofList [("a", "#include \"b\"\n"), ("b", "#include \"a\"\n")]
    let broken : Sources :=
      NameMap.ofList [("a", "#include \"b\"\n"), ("b", "#include \"a\"\n#include <c>\n")]
    sources.size ≤ 2 ∧ Reachable sources source "b" ∧
      (∃ out, expand sources 2 source "main" = .ok out) ∧
      broken.size ≤ 2 ∧ expand broken 2 source "main" = .error (.notFound "c" "b" 2) ∧
      ∃ path, Reachable broken source path ∧ broken.get? path = none := by
  intro source sources broken
  have hlimit : sources.size ≤ 2 := by decide
  let e : Expanded :=
    ⟨[beginLine ['a'], beginLine ['b'], repeatedLine "#include \"a\"".toList, endLine ['b'],
      endLine ['a']], ["b", "a"]⟩
  have he : expandFile sources 2 3 "main" (lines source.toList) [] = .ok e := by decide +kernel
  have hseen : "b" ∈ e.seen := by decide
  have hout : expand sources 2 source "main" = .ok (String.ofList (unlines e.out)) := by
    rw [expand, he]
    rfl
  obtain ⟨-, hexpanded, -⟩ := @expand_ok_iff_reachable sources 2 source "main" hlimit
  obtain ⟨e', he', -, hcovers⟩ := hexpanded _ hout
  rw [← Except.ok.inj (he.symm.trans he')] at hcovers
  have hbroken : broken.size ≤ 2 := by decide
  have hfault : expand broken 2 source "main" = .error (.notFound "c" "b" 2) := by decide +kernel
  obtain ⟨-, -, hfaults⟩ := @expand_ok_iff_reachable broken 2 source "main" hbroken
  obtain ⟨path, -, -, -, -, hpath, hnone, -⟩ := hfaults _ hfault
  exact ⟨hlimit, (hcovers.mem_iff "b").1 hseen, ⟨_, hout⟩, hbroken, hfault, path, hpath, hnone⟩

end Shaderworks.Shader
