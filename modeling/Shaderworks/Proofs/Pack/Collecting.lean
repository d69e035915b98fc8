/-
**The loop that collects the texts of a pack.**

The loop keeps a queue of paths, the texts found so far and the paths that have none.  It takes the
first path of the queue, passes over it if it has been asked for, and otherwise asks for it; what
its text asks to include goes to the end of the queue, unless it has been found already.  Nothing
in this bounds the number of turns, and the texts may ask for each other in circles.

Gathering counts its turns down from a budget.  The budget is large enough: every turn that asks
for a path uses up one of finitely many, since there are only finitely many texts to ask for
others.  So the loop without a bound comes to its end too, on every manifest and all files, and
leaves what gathering does.

Main definitions:

* `unasked` — the paths of a list that were not asked for;
* `Collects` — a run of the loop without a bound: the paths it asks for, and what it ends in;
* `GatherResult.outcome` — the texts gathered, or the failure.

Main results:

* `Collects.unique` — a run is determined by where it starts;
* `collects_gather` — gathering with a budget for all paths that can turn up is such a run;
* `collects_gatherSources` — **the loop ends for every manifest, in what is gathered.**
-/

import Shaderworks.Pack.Loading
import Shaderworks.Proofs.Text.Pieces

set_option autoImplicit false

namespace Shaderworks

/-! ### Paths not asked for -/

/-- The paths of a list that were not asked for. -/
def unasked (asked paths : List String) : List String :=
  paths.filter fun path => !asked.contains path

theorem mem_unasked {asked paths : List String} {path : String} :
    path ∈ unasked asked paths ↔ path ∈ paths ∧ path ∉ asked := by
  simp [unasked]

theorem unasked_append (asked paths more : List String) :
    unasked asked (paths ++ more) = unasked asked paths ++ unasked asked more :=
  List.filter_append ..

theorem unasked_cons_of_mem {asked : List String} {path : String} (h : path ∈ asked)
    (paths : List String) : unasked asked (path :: paths) = unasked asked paths := by
  simp [unasked, h]

theorem unasked_cons_of_notMem {asked : List String} {path : String} (h : path ∉ asked)
    (paths : List String) : unasked asked (path :: paths) = path :: unasked asked paths := by
  simp [unasked, h]

/-- One more path asked for. -/
theorem unasked_cons_asked (path : String) (asked paths : List String) :
    unasked (path :: asked) paths = (unasked asked paths).filter fun p => !p == path := by
  unfold unasked
  rw [List.filter_filter]
  refine List.filter_congr fun p _ => ?_
  rw [List.contains_cons, Bool.not_or]

/-- The first path that was not asked for stands behind some that were. -/
theorem unasked_eq_cons {asked paths rest : List String} {path : String}
    (h : unasked asked paths = path :: rest) :
    ∃ met later, paths = met ++ path :: later ∧ (∀ p ∈ met, p ∈ asked) ∧ path ∉ asked ∧
      unasked asked later = rest := by
  obtain ⟨met, later, hpaths, hmet, hnew, hrest⟩ := List.filter_eq_cons_iff.1 h
  exact ⟨met, later, hpaths, fun p hp => by simpa using hmet p hp, by simpa using hnew, hrest⟩

/-- Asking for a new path of a list leaves fewer of its paths to ask for. -/
theorem length_unasked_lt {asked paths : List String} {path : String} (hmem : path ∈ paths)
    (hnew : path ∉ asked) :
    (unasked (path :: asked) paths).length < (unasked asked paths).length := by
  rw [unasked_cons_asked, List.length_filter_lt_length_iff_exists]
  exact ⟨path, mem_unasked.2 ⟨hmem, hnew⟩, by simp⟩

/-! ### The loop without a bound -/

/-- A run of the loop from a queue, the texts found and the paths without text: the paths that it
asks for in order, and the texts or the failure that it ends in. -/
inductive Collects (files : PackFiles) :
    List String → Sources → List String → List String → Except Failure Sources → Prop
  /-- The queue is empty. -/
  | done (sources : Sources) (missing : List String) :
      Collects files [] sources missing [] (.ok sources)
  /-- A path that has been asked for is passed over. -/
  | again {path : String} {queue missing reads : List String} {sources : Sources}
      {outcome : Except Failure Sources}
      (hmet : sources.contains path = true ∨ path ∈ missing)
      (rest : Collects files queue sources missing reads outcome) :
      Collects files (path :: queue) sources missing reads outcome
  /-- A path that cannot be read ends the run. -/
  | refused {path : String} {missing : List String} {sources : Sources} {failure : Failure}
      (queue : List String) (hnew : ¬(sources.contains path = true ∨ path ∈ missing))
      (hread : files.read path = .error failure) :
      Collects files (path :: queue) sources missing [path] (.error failure)
  /-- A path without text is kept in mind. -/
  | absent {path : String} {queue missing reads : List String} {sources : Sources}
      {outcome : Except Failure Sources}
      (hnew : ¬(sources.contains path = true ∨ path ∈ missing))
      (hread : files.read path = .ok none)
      (rest : Collects files queue sources (missing ++ [path]) reads outcome) :
      Collects files (path :: queue) sources missing (path :: reads) outcome
  /-- A text is kept, and what it asks to include is put at the end of the queue. -/
  | found {path text : String} {queue missing reads : List String} {sources : Sources}
      {outcome : Except Failure Sources}
      (hnew : ¬(sources.contains path = true ∨ path ∈ missing))
      (hread : files.read path = .ok (some text))
      (rest : Collects files
        (queue ++ (Shader.includesOf text).filter fun name => !sources.contains name)
        (sources.insert path text) missing reads outcome) :
      Collects files (path :: queue) sources missing (path :: reads) outcome

namespace Collects

variable {files : PackFiles} {queue missing reads reads' : List String} {sources : Sources}
  {outcome outcome' : Except Failure Sources}

/-- A run is determined by where it starts. -/
theorem unique (h : Collects files queue sources missing reads outcome)
    (h' : Collects files queue sources missing reads' outcome') :
    reads = reads' ∧ outcome = outcome' := by
  induction h generalizing reads' outcome' with
  | done => cases h'; exact ⟨rfl, rfl⟩
  | again hmet _ ih =>
      cases h' with
      | again _ rest => exact ih rest
      | refused _ hnew _ | absent hnew _ _ | found hnew _ _ => exact absurd hmet hnew
  | refused _ hnew hread =>
      cases h' with
      | again hmet _ => exact absurd hmet hnew
      | refused _ _ hread' =>
          cases hread.symm.trans hread'
          exact ⟨rfl, rfl⟩
      | absent _ hread' _ | found _ hread' _ => cases hread.symm.trans hread'
  | absent hnew hread _ ih =>
      cases h' with
      | again hmet _ => exact absurd hmet hnew
      | absent _ _ rest =>
          obtain ⟨rfl, rfl⟩ := ih rest
          exact ⟨rfl, rfl⟩
      | refused _ _ hread' | found _ hread' _ => cases hread.symm.trans hread'
  | found hnew hread _ ih =>
      cases h' with
      | again hmet _ => exact absurd hmet hnew
      | found _ hread' rest =>
          cases hread.symm.trans hread'
          obtain ⟨rfl, rfl⟩ := ih rest
          exact ⟨rfl, rfl⟩
      | refused _ _ hread' | absent _ hread' _ => cases hread.symm.trans hread'

/-- Paths that have been asked for are passed over. -/
theorem pass {met : List String}
    (hmet : ∀ path ∈ met, sources.contains path = true ∨ path ∈ missing)
    (h : Collects files queue sources missing reads outcome) :
    Collects files (met ++ queue) sources missing reads outcome := by
  induction met with
  | nil => exact h
  | cons path met ih =>
      have hrest := ih fun p hp => hmet p (List.mem_cons_of_mem _ hp)
      exact .again (hmet path (List.mem_cons_self ..)) hrest

end Collects

/-! ### The budget is large enough -/

/-- The texts gathered, or the failure that ended it. -/
def GatherResult.outcome (r : GatherResult) : Except Failure Sources :=
  match r.failure with
  | some failure => .error failure
  | none => .ok r.gathered.sources

/-- The paths asked for are those that a text was found for and those without. -/
def Splits (asked : List String) (sources : Sources) (missing : List String) : Prop :=
  ∀ path, path ∈ asked ↔ sources.contains path = true ∨ path ∈ missing

namespace Splits

variable {asked missing : List String} {sources : Sources}

theorem start : Splits [] NameMap.empty [] := fun path => by simp [NameMap.contains]

theorem absent (h : Splits asked sources missing) (path : String) :
    Splits (path :: asked) sources (missing ++ [path]) := by
  intro p
  simp only [List.mem_cons, h p, List.mem_append, List.not_mem_nil, or_false]
  rw [or_comm, or_assoc]

theorem found (h : Splits asked sources missing) (path text : String) :
    Splits (path :: asked) (sources.insert path text) missing := by
  intro p
  rw [List.mem_cons, h p, NameMap.contains_insert, or_assoc]

/-- What was found already need not wait again. -/
theorem unasked_filter (h : Splits asked sources missing) (path : String) (names : List String) :
    unasked (path :: asked) (names.filter fun name => !sources.contains name) =
      unasked (path :: asked) names := by
  unfold unasked
  rw [List.filter_filter]
  refine List.filter_congr fun p _ => ?_
  by_cases hp : sources.contains p = true
  · have hasked : p ∈ asked := (h p).2 (.inl hp)
    simp [hasked]
  · simp [hp]

end Splits

/-- A turn of gathering asks for the first path that was not asked for. -/
theorem gather_next {files : PackFiles} {met : List String} {path : String} {g : Gathered}
    (hmet : ∀ p ∈ met, p ∈ g.asked) (hnew : path ∉ g.asked) (budget : Nat) (left : List String) :
    gather files (budget + 1) (met ++ path :: left) g =
      match files.read path with
      | .error failure => ⟨{ g with asked := path :: g.asked }, some failure⟩
      | .ok none => gather files budget left { g with asked := path :: g.asked }
      | .ok (some text) =>
          gather files budget (left ++ Shader.includesOf text)
            { sources := g.sources.insert path text, asked := path :: g.asked } := by
  have hdrop : ((met ++ path :: left).dropWhile fun p => g.asked.contains p) = path :: left :=
    Text.dropWhile_piece (by simpa using hmet) (by simpa using hnew)
  rcases hread : files.read path with failure | _ | text <;> simp only [gather, hdrop, hread]

/-- Gathering is a run of the loop, from any queue with the same new paths, while the budget is
larger than the number of paths that are left to ask for. -/
theorem collects_gather {files : PackFiles} {all : List String}
    (hall : ∀ text ∈ files.texts, Shader.includesOf text ⊆ all) (budget : Nat) :
    ∀ (waiting queue missing : List String) (g : Gathered),
      (unasked g.asked all).length < budget → waiting ⊆ all →
      Splits g.asked g.sources missing → unasked g.asked queue = unasked g.asked waiting →
      ∃ reads, (gather files budget waiting g).gathered.asked = reads.reverse ++ g.asked ∧
        Collects files queue g.sources missing reads (gather files budget waiting g).outcome := by
  induction budget with
  | zero =>
      intro _ _ _ _ hbudget
      exact absurd hbudget (Nat.not_lt_zero _)
  | succ budget ih =>
      intro waiting queue missing g hbudget hwaiting hsplits hsame
      cases hleft : unasked g.asked waiting with
      | nil =>
          have hdone : ∀ path ∈ waiting, path ∈ g.asked := by
            simpa [unasked] using hleft
          have hmet : ∀ path ∈ queue, g.sources.contains path = true ∨ path ∈ missing := by
            rw [hleft] at hsame
            intro path hpath
            exact (hsplits path).1 (by simpa using List.filter_eq_nil_iff.1 hsame path hpath)
          have hrun : Collects files (queue ++ []) g.sources missing [] (.ok g.sources) :=
            .pass hmet (.done g.sources missing)
          rw [List.append_nil] at hrun
          rw [gather_done hdone]
          exact ⟨[], rfl, hrun⟩
      | cons path rest =>
          rw [hleft] at hsame
          obtain ⟨front, left, rfl, hfront, hnew, rfl⟩ := unasked_eq_cons hleft
          obtain ⟨met, later, rfl, hmet, -, hlater⟩ := unasked_eq_cons hsame
          have hmet' : ∀ p ∈ met, g.sources.contains p = true ∨ p ∈ missing := fun p hp =>
            (hsplits p).1 (hmet p hp)
          have hnew' : ¬(g.sources.contains path = true ∨ path ∈ missing) := fun h =>
            hnew ((hsplits path).2 h)
          obtain ⟨hmem, hleft⟩ : path ∈ all ∧ left ⊆ all :=
            List.cons_subset.1 (List.append_subset.1 hwaiting).2
          have hfewer : (unasked (path :: g.asked) all).length < budget :=
            Nat.lt_of_lt_of_le (length_unasked_lt hmem hnew) (Nat.le_of_lt_succ hbudget)
          have hsame' : unasked (path :: g.asked) later = unasked (path :: g.asked) left := by
            rw [unasked_cons_asked, unasked_cons_asked, hlater]
          rw [gather_next hfront hnew]
          cases hread : files.read path with
          | error failure => exact ⟨[path], rfl, .pass hmet' (.refused later hnew' hread)⟩
          | ok answer =>
              cases answer with
              | none =>
                  obtain ⟨reads, hasked, hrun⟩ := ih left later (missing ++ [path])
                    { g with asked := path :: g.asked } hfewer hleft (hsplits.absent path) hsame'
                  refine ⟨path :: reads, ?_, .pass hmet' (.absent hnew' hread hrun)⟩
                  rw [hasked, List.reverse_cons, List.append_assoc, List.singleton_append]
              | some text =>
                  have hmore : Shader.includesOf text ⊆ all := hall text (files.text_mem _ _ hread)
                  have hqueued : unasked (path :: g.asked) (later ++
                      (Shader.includesOf text).filter fun name => !g.sources.contains name) =
                        unasked (path :: g.asked) (left ++ Shader.includesOf text) := by
                    rw [unasked_append, unasked_append, hsame', hsplits.unasked_filter]
                  obtain ⟨reads, hasked, hrun⟩ := ih _ _ missing
                    { sources := g.sources.insert path text, asked := path :: g.asked } hfewer
                    (List.append_subset.2 ⟨hleft, hmore⟩) (hsplits.found path text) hqueued
                  refine ⟨path :: reads, ?_, .pass hmet' (.found hnew' hread hrun)⟩
                  rw [hasked, List.reverse_cons, List.append_assoc, List.singleton_append]

/-- **The loop ends for every manifest, in what is gathered.** -/
theorem collects_gatherSources (files : PackFiles) (m : Manifest) :
    Collects files m.paths NameMap.empty []
      (gatherSources files m).gathered.asked.reverse (gatherSources files m).outcome := by
  have hall : ∀ text ∈ files.texts,
      Shader.includesOf text ⊆ m.paths ++ files.texts.flatMap Shader.includesOf :=
    fun text htext path hpath =>
      List.mem_append_right _ (List.mem_flatMap.2 ⟨text, htext, hpath⟩)
  have hbudget : (unasked ({} : Gathered).asked
      (m.paths ++ files.texts.flatMap Shader.includesOf)).length <
        gatherBudget files m.paths := by
    have := List.length_filter_le (fun path => !({} : Gathered).asked.contains path)
      (m.paths ++ files.texts.flatMap Shader.includesOf)
    rw [List.length_append] at this
    unfold unasked gatherBudget
    omega
  obtain ⟨reads, hasked, hrun⟩ := collects_gather hall (gatherBudget files m.paths) m.paths m.paths
    [] {} hbudget (List.subset_append_left ..) .start rfl
  have hreads : (gatherSources files m).gathered.asked.reverse = reads := by
    unfold gatherSources
    rw [hasked, List.append_nil, List.reverse_reverse]
  rw [hreads]
  exact hrun

end Shaderworks
