/-
**The files that a source reaches.**

A source reaches the paths that its directives ask for, and through each of them that has a text the
paths that the directives of this text ask for.  Files may ask for each other in circles.  An
expansion passes over a path that it has seen, yet it leaves none out: a path is entered among those
expanded before its own directives are looked at, and when the expansion is done, the directives of
all of them have been.

Main definitions:

* `asked` — the paths that some lines ask for;
* `Reachable` — the paths that a source reaches;
* `Inclusive` — a set of paths that holds what the texts of its members ask for.

Main results:

* `Expands.asked_subset`, `Expands.asked_of_new` — a successful expansion has expanded what its
  lines ask for, and what the texts of the paths that it expanded ask for;
* `Expands.mem_inclusive` — nothing else is expanded;
* `Expands.mem_iff_reachable` — **a successful expansion has expanded the reachable paths**.
-/

import Shaderworks.Proofs.Shader.Derivation

set_option autoImplicit false

namespace Shaderworks.Shader

open Text

/-! ### What is asked for -/

/-- The paths that some lines ask for, in order. -/
def asked (ls : List (List Char)) : List String := (ls.filterMap includePath?).map String.ofList

theorem includesOf_eq_asked (text : String) : includesOf text = asked (lines text.toList) := rfl

theorem asked_cons_none {line : List Char} (h : includePath? line = none)
    (rest : List (List Char)) : asked (line :: rest) = asked rest := by
  simp [asked, h]

theorem asked_cons_some {line path : List Char} (h : includePath? line = some path)
    (rest : List (List Char)) : asked (line :: rest) = String.ofList path :: asked rest := by
  simp [asked, h]

theorem asked_subset_cons (line : List Char) (rest : List (List Char)) :
    asked rest ⊆ asked (line :: rest) := by
  cases h : includePath? line with
  | none => rw [asked_cons_none h]; exact List.Subset.refl _
  | some path => rw [asked_cons_some h]; exact List.subset_cons_self _ _

/-! ### Reachable paths -/

/-- The paths that a source reaches. -/
inductive Reachable (sources : Sources) (source : String) : String → Prop
  /-- A path that the source asks for. -/
  | direct {path : String} (hpath : path ∈ includesOf source) : Reachable sources source path
  /-- A path that the text of a reachable one asks for. -/
  | nested {file text path : String} (hfile : Reachable sources source file)
      (htext : sources.get? file = some text) (hpath : path ∈ includesOf text) :
      Reachable sources source path

/-- A set of paths that holds what the texts of its members ask for. -/
def Inclusive (sources : Sources) (reached : String → Prop) : Prop :=
  ∀ file text, reached file → sources.get? file = some text → ∀ path ∈ includesOf text, reached path

theorem inclusive_reachable (sources : Sources) (source : String) :
    Inclusive sources (Reachable sources source) :=
  fun _ _ hfile htext _ hpath => .nested hfile htext hpath

/-! ### What is expanded -/

namespace Expands

variable {sources : Sources} {seen seen' : List String} {ls out : List (List Char)}

/-- What was expanded before an expansion still is afterwards. -/
theorem seen_subset (h : Expands sources seen ls out seen') : seen ⊆ seen' := by
  induction h with
  | nil => exact List.Subset.refl _
  | plain hplain hrest ih => exact ih
  | repeated hpath hseen hrest ih => exact ih
  | nested hpath hseen htext hinner hrest ihinner ihrest =>
      exact fun path hmem => ihrest (ihinner (List.mem_cons_of_mem _ hmem))

/-- A file that is new behind a block is the file of the block, or new inside it, or new behind. -/
theorem new_cases {file : String} (path : String) (mid : List String) (hnew : file ∉ seen) :
    file = path ∨ (file ∈ mid ∧ file ∉ path :: seen) ∨ file ∉ mid := by
  by_cases hself : file = path
  · exact .inl hself
  · by_cases hmid : file ∈ mid
    · exact .inr (.inl ⟨hmid, fun hmem => (List.mem_cons.1 hmem).elim hself hnew⟩)
    · exact .inr (.inr hmid)

/-- The path of a block is expanded when the block ends. -/
theorem path_mem {path : String} (h : Expands sources (path :: seen) ls out seen') :
    path ∈ seen' :=
  h.seen_subset List.mem_cons_self

/-- **What the lines ask for is expanded.** -/
theorem asked_subset (h : Expands sources seen ls out seen') : asked ls ⊆ seen' := by
  induction h with
  | nil => exact List.nil_subset _
  | plain hplain hrest ih =>
      rw [asked_cons_none hplain]
      exact ih
  | repeated hpath hseen hrest ih =>
      rw [asked_cons_some hpath]
      exact List.cons_subset.2 ⟨hrest.seen_subset hseen, ih⟩
  | nested hpath hseen htext hinner hrest ihinner ihrest =>
      rw [asked_cons_some hpath]
      exact List.cons_subset.2 ⟨hrest.seen_subset hinner.path_mem, ihrest⟩

/-- **So is what the texts of the paths ask for that are new among those expanded.** -/
theorem asked_of_new (h : Expands sources seen ls out seen') :
    ∀ file ∈ seen', file ∉ seen →
      ∃ text, sources.get? file = some text ∧ includesOf text ⊆ seen' := by
  induction h with
  | nil => exact fun file hfile hnew => absurd hfile hnew
  | plain hplain hrest ih => exact ih
  | repeated hpath hseen hrest ih => exact ih
  | @nested line path text rest inner out seen mid seen' hpath hseen htext hinner hrest ihinner
      ihrest =>
      intro file hfile hnew
      rcases new_cases (String.ofList path) mid hnew with rfl | ⟨hmid, hinside⟩ | hbehind
      · exact ⟨text, htext, fun p hp => hrest.seen_subset (hinner.asked_subset hp)⟩
      · obtain ⟨text', htext', hsub⟩ := ihinner file hmid hinside
        exact ⟨text', htext', fun p hp => hrest.seen_subset (hsub hp)⟩
      · exact ihrest file hfile hbehind

/-- **Nothing is expanded outside an inclusive set** that holds what the lines ask for. -/
theorem mem_inclusive {reached : String → Prop} (hreached : Inclusive sources reached)
    (h : Expands sources seen ls out seen') (hls : ∀ path ∈ asked ls, reached path) :
    ∀ file ∈ seen', file ∈ seen ∨ reached file := by
  induction h with
  | nil => exact fun file hfile => .inl hfile
  | plain hplain hrest ih =>
      rw [asked_cons_none hplain] at hls
      exact ih hls
  | repeated hpath hseen hrest ih =>
      rw [asked_cons_some hpath] at hls
      exact ih (List.forall_mem_cons.1 hls).2
  | nested hpath hseen htext hinner hrest ihinner ihrest =>
      rw [asked_cons_some hpath] at hls
      obtain ⟨hfirst, hothers⟩ := List.forall_mem_cons.1 hls
      intro file hfile
      rcases ihrest hothers file hfile with hmid | hout
      · rcases ihinner (hreached _ _ hfirst htext) file hmid with hcons | hin
        · rcases List.mem_cons.1 hcons with rfl | hbefore
          · exact .inr hfirst
          · exact .inl hbefore
        · exact .inr hin
      · exact .inr hout

/-- **A successful expansion has expanded the reachable paths,** and no others. -/
theorem mem_iff_reachable {source : String}
    (h : Expands sources [] (lines source.toList) out seen') (path : String) :
    path ∈ seen' ↔ Reachable sources source path := by
  constructor
  · intro hmem
    rcases h.mem_inclusive (inclusive_reachable sources source) (fun p hp => .direct hp) path hmem
      with hnone | hreached
    · exact absurd hnone List.not_mem_nil
    · exact hreached
  · intro hreached
    induction hreached with
    | direct hpath => exact h.asked_subset hpath
    | nested hfile htext hpath ih =>
        obtain ⟨text', htext', hsub⟩ := h.asked_of_new _ ih List.not_mem_nil
        rw [htext, Option.some.injEq] at htext'
        exact hsub (htext' ▸ hpath)

/-- Every path that is new among those expanded has a text. -/
theorem isSome_of_new (h : Expands sources seen ls out seen') {file : String} (hfile : file ∈ seen')
    (hnew : file ∉ seen) : (sources.get? file).isSome := by
  obtain ⟨text, htext, -⟩ := h.asked_of_new file hfile hnew
  rw [htext]
  rfl

/-- The block of every path that is new among those expanded begins among the expanded lines. -/
theorem beginLine_mem (h : Expands sources seen ls out seen') :
    ∀ file ∈ seen', file ∉ seen → beginLine file.toList ∈ out := by
  induction h with
  | nil => exact fun file hfile hnew => absurd hfile hnew
  | plain hplain hrest ih =>
      exact fun file hfile hnew => List.mem_cons_of_mem _ (ih file hfile hnew)
  | repeated hpath hseen hrest ih =>
      exact fun file hfile hnew => List.mem_cons_of_mem _ (ih file hfile hnew)
  | @nested line path text rest inner out seen mid seen' hpath hseen htext hinner hrest ihinner
      ihrest =>
      intro file hfile hnew
      rw [List.cons_append, List.mem_cons, List.mem_append, List.mem_cons]
      rcases new_cases (String.ofList path) mid hnew with rfl | ⟨hmid, hinside⟩ | hbehind
      · exact .inl (by rw [String.toList_ofList])
      · exact .inr (.inl (ihinner file hmid hinside))
      · exact .inr (.inr (.inr (ihrest file hfile hbehind)))

end Expands

end Shaderworks.Shader
