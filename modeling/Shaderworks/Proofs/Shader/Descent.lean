/-
**Where an expansion fails.**

An expansion fails inside a file, to which it has come down from the source through the files that
are open at that moment.  Each of them is asked for by the one before, and as a path is entered only
if it was not expanded before, they are different.  At the bottom there is one more level than the
limit allows, or a directive for a path without a text.

Main definitions:

* `AsksAt` — the line that asks for a path;
* `FailsWithin` — lines that fail at one of their directives;
* `Descent` — the way down from a text to another, through the texts of open files;
* `Includes` — the text of one path asks for another.

Main results:

* `failsWithin_of_expandLines` — lines fail at one of their directives, if they do;
* `descent_of_expandFile`, `descent_of_expand` — **a failed expansion came down through different
  files**;
* `Descent.reaches`, `Descent.isChain` — where the way down leads, and what it goes through;
* `length_le_size` — different paths with texts are no more than all paths with texts.
-/

import Shaderworks.Proofs.Shader.Reachability
import Mathlib.Data.List.Chain
import Mathlib.Data.List.Perm.Subperm

set_option autoImplicit false

namespace Shaderworks.Shader

open Text

variable {sources : Sources}

/-! ### One text -/

/-- Line `k` of some lines asks for a path.  The first line has number zero. -/
def AsksAt (ls : List (List Char)) (k : Nat) (path : String) : Prop :=
  (ls[k]?.bind includePath?).map String.ofList = some path

theorem asksAt_zero {line path : List Char} (h : includePath? line = some path)
    (rest : List (List Char)) : AsksAt (line :: rest) 0 (String.ofList path) := by
  simp [AsksAt, h]

theorem asksAt_succ {line : List Char} {rest : List (List Char)} {k : Nat} {path : String} :
    AsksAt (line :: rest) (k + 1) path ↔ AsksAt rest k path :=
  Iff.rfl

theorem AsksAt.mem_asked {ls : List (List Char)} {k : Nat} {path : String}
    (h : AsksAt ls k path) : path ∈ asked ls := by
  obtain ⟨p, hp, rfl⟩ := Option.map_eq_some_iff.1 h
  obtain ⟨line, hline, hpath⟩ := Option.bind_eq_some_iff.1 hp
  exact List.mem_map_of_mem (List.mem_filterMap.2 ⟨line, List.mem_of_getElem? hline, hpath⟩)

/-- Lines fail with a fault at one of their directives, for a path that is not among those expanded
by then.  Either it has no text, or its text fails with the fault. -/
def FailsWithin (sources : Sources)
    (nested : String → List (List Char) → List String → Except IncludeFault Expanded)
    (origin : String) (n : Nat) (ls : List (List Char)) (seen : List String)
    (fault : IncludeFault) : Prop :=
  ∃ k path mid, AsksAt ls k path ∧ seen ⊆ mid ∧ path ∉ mid ∧
    ((sources.get? path = none ∧ fault = .notFound path origin (n + k)) ∨
      ∃ text, sources.get? path = some text ∧
        nested path (lines text.toList) (path :: mid) = .error fault)

section Lines

variable {nested : String → List (List Char) → List String → Except IncludeFault Expanded}
  {origin : String} {n : Nat} {line : List Char} {rest : List (List Char)}
  {seen mid : List String} {fault : IncludeFault}

/-- Lines fail if those behind the first one do. -/
theorem FailsWithin.behind (h : FailsWithin sources nested origin (n + 1) rest mid fault)
    (hmid : seen ⊆ mid) : FailsWithin sources nested origin n (line :: rest) seen fault := by
  obtain ⟨k, path, later, hasks, hsub, hnew, hfault⟩ := h
  rw [Nat.add_right_comm] at hfault
  exact ⟨k + 1, path, later, asksAt_succ.2 hasks, List.Subset.trans hmid hsub, hnew, hfault⟩

/-- **Lines fail at one of their directives.** -/
theorem failsWithin_of_expandLines
    (hkeeps : ∀ origin ls seen e, nested origin ls seen = .ok e → seen ⊆ e.seen)
    (ls : List (List Char)) : ∀ n seen, expandLines sources nested origin n ls seen = .error fault →
      FailsWithin sources nested origin n ls seen fault := by
  induction ls with
  | nil =>
      intro n seen h
      cases h
  | cons line rest ih =>
      intro n seen h
      cases hpath : includePath? line with
      | none =>
          rw [expandLines_plain hpath] at h
          exact (ih _ _ (map_eq_error h)).behind (List.Subset.refl _)
      | some path =>
          by_cases hseen : String.ofList path ∈ seen
          · rw [expandLines_repeated hpath hseen] at h
            exact (ih _ _ (map_eq_error h)).behind (List.Subset.refl _)
          · have hasks := asksAt_zero hpath rest
            cases htext : sources.get? (String.ofList path) with
            | none =>
                rw [expandLines_missing hpath hseen htext, Except.error.injEq] at h
                exact ⟨0, _, seen, hasks, List.Subset.refl _, hseen, .inl ⟨htext, h.symm⟩⟩
            | some text =>
                rw [expandLines_nested hpath hseen htext] at h
                rcases bind_eq_error h with hinner | ⟨inner, hinner, hrest⟩
                · exact ⟨0, _, seen, hasks, List.Subset.refl _, hseen, .inr ⟨text, htext, hinner⟩⟩
                · have hsub := hkeeps _ _ _ _ hinner
                  exact (ih _ _ (map_eq_error hrest)).behind fun p hp =>
                    hsub (List.mem_cons_of_mem _ hp)

end Lines

/-! ### The way down -/

/-- The way from the lines `ls` of `origin` down to the lines `ls'` of `file`, through the texts of
the paths in the list. -/
inductive Descent (sources : Sources) :
    String → List (List Char) → List String → String → List (List Char) → Prop
  /-- The lines are reached. -/
  | here (origin : String) (ls : List (List Char)) : Descent sources origin ls [] origin ls
  /-- The text of a path is entered that the lines ask for. -/
  | enter {origin path file text : String} {ls ls' : List (List Char)} {chain : List String}
      (hasked : path ∈ asked ls) (htext : sources.get? path = some text)
      (hrest : Descent sources path (lines text.toList) chain file ls') :
      Descent sources origin ls (path :: chain) file ls'

/-- The text of one path asks for another. -/
def Includes (sources : Sources) (file path : String) : Prop :=
  ∃ text, sources.get? file = some text ∧ path ∈ includesOf text

namespace Descent

variable {origin file : String} {ls ls' : List (List Char)} {chain : List String}

/-- The way down stays in an inclusive set, and ends where it began or in the text of a member. -/
theorem reaches {reached : String → Prop} (hreached : Inclusive sources reached)
    (h : Descent sources origin ls chain file ls') (hls : ∀ path ∈ asked ls, reached path) :
    (file = origin ∧ ls' = ls) ∨
      ∃ text, reached file ∧ sources.get? file = some text ∧ ls' = lines text.toList := by
  induction h with
  | here => exact .inl ⟨rfl, rfl⟩
  | enter hasked htext hrest ih =>
      have hpath := hls _ hasked
      rcases ih (hreached _ _ hpath htext) with ⟨rfl, rfl⟩ | hdeeper
      · exact .inr ⟨_, hpath, htext, rfl⟩
      · exact .inr hdeeper

/-- Each path on the way down has a text, which asks for the next one; the lines ask for the first,
and the last is where the way ends. -/
theorem isChain (h : Descent sources origin ls chain file ls') :
    (∀ path ∈ chain.head?, path ∈ asked ls) ∧ chain.IsChain (Includes sources) ∧
      (∀ path ∈ chain, (sources.get? path).isSome) ∧
      (chain ≠ [] → chain.getLast? = some file) := by
  induction h with
  | here => simp
  | @enter origin path file text ls ls' chain hasked htext hrest ih =>
      obtain ⟨hfirst, hchain, htexts, hlast⟩ := ih
      refine ⟨?_, ?_, ?_, fun _ => ?_⟩
      · rintro p ⟨⟩
        exact hasked
      · exact List.isChain_cons.2 ⟨fun p hp => ⟨text, htext, hfirst p hp⟩, hchain⟩
      · exact List.forall_mem_cons.2 ⟨by rw [htext]; rfl, htexts⟩
      · cases hrest with
        | here => rfl
        | enter hasked' htext' hrest' =>
            rw [List.getLast?_cons_cons]
            exact hlast (List.cons_ne_nil _ _)

end Descent

/-- **A failed expansion of a file came down through different files** that were not expanded
before. -/
theorem descent_of_expandFile {limit : Nat} (levels : Nat) :
    ∀ origin ls seen fault, expandFile sources limit levels origin ls seen = .error fault →
      ∃ chain file ls', Descent sources origin ls chain file ls' ∧ chain.Nodup ∧
        (∀ path ∈ chain, path ∉ seen) ∧
        ((fault = .tooDeep file limit ∧ chain.length = levels) ∨
          ∃ k path, fault = .notFound path file (k + 1) ∧ AsksAt ls' k path ∧
            sources.get? path = none) := by
  induction levels with
  | zero =>
      intro origin ls seen fault h
      exact ⟨[], origin, ls, .here origin ls, .nil, by simp,
        .inl ⟨(Except.error.inj h).symm, rfl⟩⟩
  | succ levels ih =>
      intro origin ls seen fault h
      have hkeeps : ∀ origin ls seen e,
          expandFile sources limit levels origin ls seen = .ok e → seen ⊆ e.seen :=
        fun origin ls seen e he => (expands_of_expandFile _ _ _ _ _ he).seen_subset
      obtain ⟨k, path, mid, hasks, hsub, hnew, hmissing | ⟨text, htext, hnested⟩⟩ :=
        failsWithin_of_expandLines hkeeps ls 1 seen h
      · obtain ⟨hnone, rfl⟩ := hmissing
        exact ⟨[], origin, ls, .here origin ls, .nil, by simp,
          .inr ⟨k, path, by rw [Nat.add_comm], hasks, hnone⟩⟩
      · obtain ⟨chain, file, ls', hdescent, hnodup, hfresh, hfault⟩ := ih _ _ _ _ hnested
        have hpath : path ∉ chain := fun hmem => hfresh path hmem List.mem_cons_self
        refine ⟨path :: chain, file, ls', .enter hasks.mem_asked htext hdescent,
          List.nodup_cons.2 ⟨hpath, hnodup⟩, List.forall_mem_cons.2 ⟨fun hmem => hnew (hsub hmem),
          fun p hp hmem => hfresh p hp (List.mem_cons_of_mem _ (hsub hmem))⟩, ?_⟩
        rcases hfault with ⟨hfault, hlength⟩ | hfault
        · exact .inl ⟨hfault, congrArg Nat.succ hlength⟩
        · exact .inr hfault

/-- **A failed expansion of a source came down through different files.** -/
theorem descent_of_expand {limit : Nat} {source origin : String} {fault : IncludeFault}
    (h : expand sources limit source origin = .error fault) :
    ∃ chain file ls', Descent sources origin (lines source.toList) chain file ls' ∧ chain.Nodup ∧
      ((fault = .tooDeep file limit ∧ chain.length = limit + 1) ∨
        ∃ k path, fault = .notFound path file (k + 1) ∧ AsksAt ls' k path ∧
          sources.get? path = none) := by
  obtain ⟨chain, file, ls', hdescent, hnodup, -, hfault⟩ :=
    descent_of_expandFile _ _ _ _ _ (map_eq_error h)
  exact ⟨chain, file, ls', hdescent, hnodup, hfault⟩

/-- Different paths with texts are no more than all paths with texts. -/
theorem length_le_size {paths : List String} (hnodup : paths.Nodup)
    (htexts : ∀ path ∈ paths, (sources.get? path).isSome) : paths.length ≤ sources.size := by
  have hsub : paths ⊆ sources.names := fun path hpath =>
    NameMap.isSome_get?_iff.1 (htexts path hpath)
  have hlength := (hnodup.subperm hsub).length_le
  rwa [NameMap.names, List.length_map] at hlength

end Shaderworks.Shader
