/-
**Counting how deep files nest.**

A machine counts the level of nesting in a word, and a word holds no number above some largest one.
The counter is never in danger, whatever the limit and however the files ask for each other: it
counts the files that are open, these are different, and there are no more of them than files.  For
the same reason an expansion ends without any limit: each file that is entered is one less to enter.

Main definitions:

* `unexpanded` — how many paths with a text are not expanded yet;
* `countedLines`, `countedExpand` — expansion with a counter that may overflow, by recursion on the
  paths that are not expanded yet;
* `Entered` — so many of the paths expanded so far are open.

Main results:

* `countedLines_eq`, `countedExpand_eq` — **the counter never overflows,** and counting levels down
  from the limit is the same;
* `chain_of_tooDeep` — an expansion that goes too deep has come through one file more than the limit
  allows;
* `depth_bound` — both, and that no limit is met with fewer files.
-/

import Shaderworks.Proofs.Shader.Descent
import Shaderworks.Proofs.Shader.Structure

set_option autoImplicit false

namespace Shaderworks.Shader

open Text

variable {sources : Sources}

/-! ### What is left to expand -/

/-- The number of paths with a text that are not expanded yet. -/
def unexpanded (sources : Sources) (seen : List String) : Nat :=
  (sources.names.filter fun path => path ∉ seen).length

theorem unexpanded_le {seen seen' : List String} (h : seen ⊆ seen') :
    unexpanded sources seen' ≤ unexpanded sources seen := by
  refine (List.monotone_filter_right _ fun path hpath => ?_).length_le
  rw [decide_eq_true_eq] at hpath ⊢
  intro hmem
  exact hpath (h hmem)

/-- Expanding a path leaves one less to expand. -/
theorem unexpanded_lt {seen : List String} {path text : String} (hnew : path ∉ seen)
    (htext : sources.get? path = some text) :
    unexpanded sources (path :: seen) < unexpanded sources seen := by
  have hname : path ∈ sources.names :=
    NameMap.isSome_get?_iff.1 (Option.isSome_iff_exists.2 ⟨text, htext⟩)
  have hsplit : (sources.names.filter fun p => p ∉ path :: seen) =
      (sources.names.filter fun p => p ∉ seen).filter fun p => p ≠ path := by
    rw [List.filter_filter]
    refine List.filter_congr fun p _ => ?_
    simp [not_or]
  rw [unexpanded, unexpanded, hsplit]
  exact List.length_filter_lt_length_iff_exists.2
    ⟨path, List.mem_filter.2 ⟨hname, by simpa using hnew⟩, by simp⟩

/-! ### Expansion with a counter -/

/-- Why an expansion with a counter fails. -/
inductive CountedFault where
  /-- As an expansion does. -/
  | fault (fault : IncludeFault)
  /-- The counter cannot hold the next level. -/
  | overflow
  deriving DecidableEq

/-- Expands the lines of `origin` from line number `n` on, at a level of nesting that is held in a
counter, and tells that no path is forgotten.  The counter holds no number above `top`. -/
def countedGrowth (sources : Sources) (top limit depth : Nat) (origin : String) (n : Nat)
    (ls : List (List Char)) (seen : List String) :
    Except CountedFault { e : Expanded // seen ⊆ e.seen } :=
  match ls with
  | [] => .ok ⟨⟨[], seen⟩, List.Subset.refl _⟩
  | line :: rest =>
      match includePath? line with
      | none => do
          let after ← countedGrowth sources top limit depth origin (n + 1) rest seen
          return ⟨⟨line :: after.1.out, after.1.seen⟩, after.2⟩
      | some path =>
          if hseen : String.ofList path ∈ seen then do
            let after ← countedGrowth sources top limit depth origin (n + 1) rest seen
            return ⟨⟨repeatedLine line :: after.1.out, after.1.seen⟩, after.2⟩
          else
            match _ : sources.get? (String.ofList path) with
            | none => .error (.fault (.notFound (String.ofList path) origin n))
            | some text =>
                if depth = top then .error .overflow
                else if limit < depth + 1 then
                  .error (.fault (.tooDeep (String.ofList path) limit))
                else do
                  let inner ← countedGrowth sources top limit (depth + 1) (String.ofList path) 1
                    (lines text.toList) (String.ofList path :: seen)
                  let after ← countedGrowth sources top limit depth origin (n + 1) rest inner.1.seen
                  return ⟨⟨beginLine path :: inner.1.out ++ endLine path :: after.1.out,
                    after.1.seen⟩, fun _ hmem => after.2 (inner.2 (List.mem_cons_of_mem _ hmem))⟩
-- The text that is entered is one less to expand; behind it there are no more, and fewer lines.
termination_by (unexpanded sources seen, ls.length)
decreasing_by
  · exact .right _ (Nat.lt_succ_self _)
  · exact .right _ (Nat.lt_succ_self _)
  · exact .left _ _ (unexpanded_lt hseen ‹_›)
  · have hless : unexpanded sources inner.1.seen < unexpanded sources seen :=
      Nat.lt_of_le_of_lt (unexpanded_le inner.2) (unexpanded_lt hseen ‹_›)
    exact .left _ _ hless

/-- The expanded lines of `origin` from line number `n` on, at a level of nesting that is held in a
counter. -/
def countedLines (sources : Sources) (top limit depth : Nat) (origin : String) (n : Nat)
    (ls : List (List Char)) (seen : List String) : Except CountedFault Expanded :=
  (countedGrowth sources top limit depth origin n ls seen).map Subtype.val

/-- The expanded text of a source, with a counter for the level of nesting. -/
def countedExpand (sources : Sources) (top limit : Nat) (source origin : String) :
    Except CountedFault String :=
  (countedLines sources top limit 0 origin 1 (lines source.toList) []).map fun e =>
    String.ofList (unlines e.out)

section Steps

variable {top limit depth n : Nat} {origin : String} {line : List Char} {rest : List (List Char)}
  {seen : List String}

theorem countedLines_nil :
    countedLines sources top limit depth origin n [] seen = .ok ⟨[], seen⟩ := by
  rw [countedLines, countedGrowth]
  rfl

theorem countedLines_plain (h : includePath? line = none) :
    countedLines sources top limit depth origin n (line :: rest) seen =
      (countedLines sources top limit depth origin (n + 1) rest seen).map fun after =>
        ⟨line :: after.out, after.seen⟩ := by
  rw [countedLines, countedLines, countedGrowth]
  split
  · cases countedGrowth sources top limit depth origin (n + 1) rest seen <;> rfl
  · next path hpath => rw [h] at hpath; cases hpath

theorem countedLines_repeated {path : List Char} (h : includePath? line = some path)
    (hseen : String.ofList path ∈ seen) :
    countedLines sources top limit depth origin n (line :: rest) seen =
      (countedLines sources top limit depth origin (n + 1) rest seen).map fun after =>
        ⟨repeatedLine line :: after.out, after.seen⟩ := by
  rw [countedLines, countedLines, countedGrowth]
  split
  · next hnone => rw [h] at hnone; cases hnone
  · next path' hpath =>
      obtain rfl : path = path' := Option.some.inj (h.symm.trans hpath)
      rw [dif_pos hseen]
      cases countedGrowth sources top limit depth origin (n + 1) rest seen <;> rfl

theorem countedLines_missing {path : List Char} (h : includePath? line = some path)
    (hseen : String.ofList path ∉ seen) (hnone : sources.get? (String.ofList path) = none) :
    countedLines sources top limit depth origin n (line :: rest) seen =
      .error (.fault (.notFound (String.ofList path) origin n)) := by
  rw [countedLines, countedGrowth]
  split
  · next hnone => rw [h] at hnone; cases hnone
  · next path' hpath =>
      obtain rfl : path = path' := Option.some.inj (h.symm.trans hpath)
      rw [dif_neg hseen]
      split
      · rfl
      · next text htext => rw [hnone] at htext; cases htext

/-- A file is entered if the counter can hold the next level and the limit allows it. -/
theorem countedLines_nested {path : List Char} {text : String} (h : includePath? line = some path)
    (hseen : String.ofList path ∉ seen) (htext : sources.get? (String.ofList path) = some text)
    (hroom : depth ≠ top) :
    countedLines sources top limit depth origin n (line :: rest) seen =
      if limit < depth + 1 then .error (.fault (.tooDeep (String.ofList path) limit))
      else
        (countedLines sources top limit (depth + 1) (String.ofList path) 1 (lines text.toList)
          (String.ofList path :: seen)).bind fun inner =>
          (countedLines sources top limit depth origin (n + 1) rest inner.seen).map fun after =>
            ⟨beginLine path :: inner.out ++ endLine path :: after.out, after.seen⟩ := by
  simp only [countedLines]
  rw [countedGrowth]
  split
  · next hnone => rw [h] at hnone; cases hnone
  · next path' hpath =>
      obtain rfl : path = path' := Option.some.inj (h.symm.trans hpath)
      rw [dif_neg hseen]
      split
      · next hnone => rw [hnone] at htext; cases htext
      · next text' htext' =>
          obtain rfl : text = text' := Option.some.inj (htext.symm.trans htext')
          rw [if_neg hroom]
          split
          · rfl
          · cases countedGrowth sources top limit (depth + 1) (String.ofList path) 1
              (lines text.toList) (String.ofList path :: seen) with
            | error fault => rfl
            | ok inner =>
                simp only [bind, Except.bind, Except.map]
                cases countedGrowth sources top limit depth origin (n + 1) rest inner.1.seen <;> rfl

end Steps

/-! ### Open files -/

/-- Among the paths expanded so far, all different and with a text, `depth` may be open. -/
structure Entered (sources : Sources) (depth : Nat) (seen : List String) : Prop where
  /-- The paths are different. -/
  nodup : seen.Nodup
  /-- Each has a text. -/
  isSome : ∀ path ∈ seen, (sources.get? path).isSome
  /-- They are no fewer than are open. -/
  depth_le : depth ≤ seen.length

namespace Entered

variable {depth : Nat} {seen seen' : List String}

theorem start (sources : Sources) : Entered sources 0 [] := ⟨.nil, by simp, Nat.le_refl _⟩

/-- A file is entered. -/
theorem enter (h : Entered sources depth seen) {path text : String} (hnew : path ∉ seen)
    (htext : sources.get? path = some text) : Entered sources (depth + 1) (path :: seen) where
  nodup := List.nodup_cons.2 ⟨hnew, h.nodup⟩
  isSome := List.forall_mem_cons.2 ⟨by rw [htext]; rfl, h.isSome⟩
  depth_le := Nat.succ_le_succ h.depth_le

/-- A file is left. -/
theorem leave (h : Entered sources (depth + 1) seen) : Entered sources depth seen :=
  ⟨h.nodup, h.isSome, Nat.le_of_succ_le h.depth_le⟩

/-- Lines are expanded. -/
theorem expands (h : Entered sources depth seen) {ls out : List (List Char)}
    (hexpands : Expands sources seen ls out seen') : Entered sources depth seen' where
  nodup := hexpands.nodup h.nodup
  isSome := fun path hpath => by
    by_cases hseen : path ∈ seen
    · exact h.isSome path hseen
    · exact hexpands.isSome_of_new hpath hseen
  depth_le := h.depth_le.trans (h.nodup.subperm hexpands.seen_subset).length_le

/-- No more files are open than there are. -/
theorem depth_le_size (h : Entered sources depth seen) : depth ≤ sources.size :=
  h.depth_le.trans (length_le_size h.nodup h.isSome)

end Entered

/-! ### The counter never overflows -/

/-- What fails with a counter fails without. -/
theorem error_of_mapError {α : Type} {x : Except IncludeFault α} {fault : IncludeFault}
    (h : x.mapError CountedFault.fault = .error (.fault fault)) : x = .error fault := by
  cases x with
  | error other => exact congrArg Except.error (CountedFault.fault.inj (Except.error.inj h))
  | ok a => cases h

/-- Lines are expanded without overflow if nested files are. -/
theorem countedLines_eq_of_nested {top limit depth : Nat}
    {nested : String → List (List Char) → List String → Except IncludeFault Expanded}
    (hroom : limit < top ∨ sources.size ≤ top) (hdepth : depth ≤ limit)
    (hfollows : ∀ origin ls seen e, nested origin ls seen = .ok e →
      Expands sources seen ls e.out e.seen)
    (hnested : ∀ path ls seen, Entered sources (depth + 1) seen →
      (nested path ls seen).mapError .fault =
        if limit < depth + 1 then .error (.fault (.tooDeep path limit))
        else countedLines sources top limit (depth + 1) path 1 ls seen)
    (origin : String) (ls : List (List Char)) :
    ∀ n seen, Entered sources depth seen →
      countedLines sources top limit depth origin n ls seen =
        (expandLines sources nested origin n ls seen).mapError .fault := by
  induction ls with
  | nil => exact fun n seen _ => countedLines_nil
  | cons line rest ih =>
      intro n seen hentered
      cases hpath : includePath? line with
      | none =>
          rw [countedLines_plain hpath, expandLines_plain hpath, mapError_map,
            ih (n + 1) seen hentered]
      | some path =>
          by_cases hseen : String.ofList path ∈ seen
          · rw [countedLines_repeated hpath hseen, expandLines_repeated hpath hseen, mapError_map,
              ih (n + 1) seen hentered]
          · cases htext : sources.get? (String.ofList path) with
            | none =>
                rw [countedLines_missing hpath hseen htext, expandLines_missing hpath hseen htext]
                rfl
            | some text =>
                have henter := hentered.enter hseen htext
                -- The file to enter is one more than the open ones, and there are no more files.
                have hnext : depth ≠ top := by
                  have hsize := henter.depth_le_size
                  omega
                have hinner := hnested (String.ofList path) (lines text.toList) _ henter
                rw [countedLines_nested hpath hseen htext hnext, expandLines_nested hpath hseen htext]
                by_cases hlimit : limit < depth + 1
                · rw [if_pos hlimit] at hinner ⊢
                  rw [error_of_mapError hinner]
                  rfl
                · rw [if_neg hlimit] at hinner ⊢
                  rw [← hinner]
                  cases hresult : nested (String.ofList path) (lines text.toList)
                      (String.ofList path :: seen) with
                  | error fault => rfl
                  | ok inner =>
                      have hafter := (henter.expands (hfollows _ _ _ _ hresult)).leave
                      simp only [Except.mapError, Except.bind]
                      rw [ih (n + 1) inner.seen hafter]
                      exact (mapError_map _ _ _).symm

/-- **The counter never overflows,** and with `levels` of them left it stands at what the limit is
above that. -/
theorem countedLines_eq {top limit : Nat} (hroom : limit < top ∨ sources.size ≤ top)
    (levels : Nat) : ∀ depth, depth + levels = limit → ∀ origin ls n seen,
      Entered sources depth seen →
        countedLines sources top limit depth origin n ls seen =
          (expandLines sources (expandFile sources limit levels) origin n ls seen).mapError
            .fault := by
  induction levels with
  | zero =>
      intro depth hdepth
      refine countedLines_eq_of_nested hroom (by omega) (expands_of_expandFile 0) ?_
      intro path ls seen _
      rw [if_pos (by omega)]
      rfl
  | succ levels ih =>
      intro depth hdepth
      refine countedLines_eq_of_nested hroom (by omega) (expands_of_expandFile (levels + 1)) ?_
      intro path ls seen hentered
      rw [if_neg (by omega), ih (depth + 1) (by omega) path ls 1 seen hentered]
      rfl

/-- The expansion of a source is the same with a counter, if the counter can hold more than the
limit or the number of files. -/
theorem countedExpand_eq {top limit : Nat} (hroom : limit < top ∨ sources.size ≤ top)
    (source origin : String) :
    countedExpand sources top limit source origin =
      (expand sources limit source origin).mapError .fault := by
  rw [countedExpand, countedLines_eq hroom limit 0 (by omega) _ _ _ _ (.start sources), expand,
    mapError_map]
  rfl

/-! ### The limit -/

/-- An expansion that goes too deep has come through one file more than the limit allows, each asked
for by the one before. -/
theorem chain_of_tooDeep {limit m : Nat} {source origin path : String}
    (h : expand sources limit source origin = .error (.tooDeep path m)) :
    m = limit ∧ ∃ chain : List String, chain.length = limit + 1 ∧ chain.Nodup ∧
      (∀ p ∈ chain, (sources.get? p).isSome) ∧ (∀ p ∈ chain.head?, p ∈ includesOf source) ∧
      chain.IsChain (Includes sources) ∧ chain.getLast? = some path := by
  obtain ⟨chain, file, ls, hdescent, hnodup, ⟨hfault, hlength⟩ | ⟨k, p, hfault, -⟩⟩ :=
    descent_of_expand h
  · obtain ⟨rfl, rfl⟩ := IncludeFault.tooDeep.inj hfault
    obtain ⟨hfirst, hchain, htexts, hlast⟩ := hdescent.isChain
    have hne : chain ≠ [] := List.ne_nil_of_length_eq_add_one hlength
    exact ⟨rfl, chain, hlength, hnodup, htexts, hfirst, hchain, hlast hne⟩
  · cases hfault

/-- **Files nest no deeper than there are files.**  So the counter of the levels never overflows,
whatever the limit, if it can hold more than the limit or the number of files; a counter that is good
for counting the files themselves always can.  An expansion goes too deep only through one file more
than the limit allows, all different and each asked for by the one before; and it never does if there
are no more files than the limit allows levels. -/
theorem depth_bound (sources : Sources) (limit : Nat) (source origin : String) :
    (∀ top, limit < top ∨ sources.size ≤ top →
        countedExpand sources top limit source origin =
          (expand sources limit source origin).mapError .fault) ∧
      (∀ path m, expand sources limit source origin = .error (.tooDeep path m) →
        m = limit ∧ ∃ chain : List String, chain.length = limit + 1 ∧ chain.Nodup ∧
          (∀ p ∈ chain, (sources.get? p).isSome) ∧ (∀ p ∈ chain.head?, p ∈ includesOf source) ∧
          chain.IsChain (Includes sources) ∧ chain.getLast? = some path) ∧
      (sources.size ≤ limit →
        ∀ path m, expand sources limit source origin ≠ .error (.tooDeep path m)) := by
  refine ⟨fun top hroom => countedExpand_eq hroom source origin, fun path m => chain_of_tooDeep, ?_⟩
  intro hsize path m h
  obtain ⟨-, chain, hlength, hnodup, htexts, -⟩ := chain_of_tooDeep h
  have hle := length_le_size hnodup htexts
  omega

/-- Three files in a circle: two levels are too few, three are enough, and a counter up to three
counts them. -/
theorem depth_bound_circle :
    let sources : Sources := NameMap.ofList
      [("a", "#include \"b\"\n"), ("b", "#include \"c\"\n"), ("c", "#include \"a\"\n")]
    let source := "#include \"a\"\n"
    expand sources 2 source "main" = .error (.tooDeep "c" 2) ∧
      (∃ chain : List String, chain.length = 3 ∧ chain.Nodup ∧ chain.getLast? = some "c") ∧
      sources.size ≤ 3 ∧
      countedExpand sources 3 3 source "main" = (expand sources 3 source "main").mapError .fault ∧
      expand sources 3 source "main" ≠ .error (.tooDeep "c" 3) := by
  intro sources source
  have hdeep : expand sources 2 source "main" = .error (.tooDeep "c" 2) := by decide +kernel
  have hsize : sources.size ≤ 3 := by decide
  obtain ⟨-, chain, hlength, hnodup, -, -, -, hlast⟩ :=
    (depth_bound sources 2 source "main").2.1 _ _ hdeep
  obtain ⟨hcounted, -, hbounded⟩ := depth_bound sources 3 source "main"
  exact ⟨hdeep, ⟨chain, hlength, hnodup, hlast⟩, hsize, hcounted 3 (.inr hsize),
    hbounded hsize "c" 3⟩

end Shaderworks.Shader
