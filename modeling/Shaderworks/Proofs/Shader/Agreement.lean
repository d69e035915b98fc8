/-
**An expansion depends on the reachable files only.**

An expansion asks for texts of reachable paths and of no others.  So two maps of sources that agree
on the paths that a source reaches in one of them expand the source alike: in lock-step, with the
same paths expanded before every line, and with the same fault if there is one.

Main results:

* `expandFile_congr` — sources that agree on an inclusive set expand alike the lines that ask for
  members;
* `expand_congr` — **sources that agree on the reachable paths expand a source alike.**
-/

import Shaderworks.Proofs.Shader.Reachability

set_option autoImplicit false

namespace Shaderworks.Shader

open Text

variable {sources sources' : Sources} {reached : String → Prop}

/-- Lines that ask for members of a set are expanded alike by sources that agree on the set, if the
texts of members are. -/
theorem expandLines_congr
    {nested nested' : String → List (List Char) → List String → Except IncludeFault Expanded}
    (hagree : ∀ path, reached path → sources'.get? path = sources.get? path)
    (hnested : ∀ path text seen, reached path → sources.get? path = some text →
      nested' path (lines text.toList) seen = nested path (lines text.toList) seen)
    (origin : String) (ls : List (List Char)) :
    ∀ n seen, (∀ path ∈ asked ls, reached path) →
      expandLines sources' nested' origin n ls seen =
        expandLines sources nested origin n ls seen := by
  induction ls with
  | nil =>
      intro n seen hls
      rfl
  | cons line rest ih =>
      intro n seen hls
      have hrest : ∀ path ∈ asked rest, reached path := fun path hpath =>
        hls path (asked_subset_cons line rest hpath)
      cases hpath : includePath? line with
      | none => rw [expandLines_plain hpath, expandLines_plain hpath, ih _ _ hrest]
      | some path =>
          by_cases hseen : String.ofList path ∈ seen
          · rw [expandLines_repeated hpath hseen, expandLines_repeated hpath hseen, ih _ _ hrest]
          · rw [asked_cons_some hpath] at hls
            have hmember := (List.forall_mem_cons.1 hls).1
            have hsame := hagree _ hmember
            cases htext : sources.get? (String.ofList path) with
            | none =>
                rw [htext] at hsame
                rw [expandLines_missing hpath hseen hsame, expandLines_missing hpath hseen htext]
            | some text =>
                rw [htext] at hsame
                rw [expandLines_nested hpath hseen hsame, expandLines_nested hpath hseen htext,
                  hnested _ _ _ hmember htext]
                -- Both go on behind the block with the same paths expanded.
                cases nested (String.ofList path) (lines text.toList) (String.ofList path :: seen) with
                | error fault => rfl
                | ok inner =>
                    simp only [Except.bind]
                    rw [ih _ _ hrest]

/-- Sources that agree on an inclusive set expand alike the lines that ask for members. -/
theorem expandFile_congr (hreached : Inclusive sources reached)
    (hagree : ∀ path, reached path → sources'.get? path = sources.get? path) (limit : Nat)
    (levels : Nat) : ∀ origin ls seen, (∀ path ∈ asked ls, reached path) →
      expandFile sources' limit levels origin ls seen =
        expandFile sources limit levels origin ls seen := by
  induction levels with
  | zero =>
      intro origin ls seen hls
      rfl
  | succ levels ih =>
      intro origin ls seen hls
      refine expandLines_congr hagree (fun path text seen hpath htext => ?_) origin ls 1 seen hls
      exact ih path (lines text.toList) seen (hreached path text hpath htext)

/-- **Sources that agree on the reachable paths expand a source alike.** -/
theorem expand_congr {source : String}
    (hagree : ∀ path, Reachable sources source path → sources'.get? path = sources.get? path)
    (limit : Nat) (origin : String) :
    expand sources' limit source origin = expand sources limit source origin := by
  rw [expand, expand, expandFile_congr (inclusive_reachable sources source) hagree]
  exact fun path hpath => .direct hpath

end Shaderworks.Shader
