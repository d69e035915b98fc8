/-
**What a pack reads.**

A pack needs the paths that its manifest declares, and with each path that has a text the paths
that this text asks to include.  They have an order of first discovery: the declared paths come
first, then what the first of them asks for, then what the second asks for, and so on, each path
where it is mentioned for the first time.  Neither speaks of a queue or of what has been read
before.

Loading reads the needed paths in this order, each of them once and nothing else, and keeps the
texts.  It stops at the first one that cannot be read.

To see what the order is when some paths cannot be read, they are taken for absent: then the loop
goes through all of them, and the run on the files as they are is the same up to the first failure.

Main definitions:

* `Needed` — the least set of paths with the declared ones and what the texts of its members ask
  for;
* `BreadthFirst` — the needed paths in the order of first discovery;
* `PackFiles.forgiving` — files in which an unreadable path is absent.

Main results:

* `Collects.eq_eraseDups` — a successful run asks for every path where it is first mentioned;
* `Collects.of_forgiving` — a run on forgiving files is one on the files up to the first failure;
* `loadPack_breadthFirst` — **loading reads exactly the needed paths, breadth first, up to the
  first that cannot be read.**
-/

import Mathlib.Data.List.Basic
import Shaderworks.Proofs.Pack.Collecting

set_option autoImplicit false

namespace Shaderworks

/-! ### What is needed -/

namespace PackFiles

/-- The text of a path, if it can be read and has one. -/
def text? (files : PackFiles) (path : String) : Option String :=
  match files.read path with
  | .ok answer => answer
  | .error _ => none

/-- The paths that the text of a path asks to include. -/
def asks (files : PackFiles) (path : String) : List String :=
  match files.text? path with
  | some text => Shader.includesOf text
  | none => []

/-- The files say whether a path has a text. -/
def Answers (files : PackFiles) (path : String) : Prop := ∃ answer, files.read path = .ok answer

variable {files : PackFiles} {path text : String}

theorem text?_of_read {answer : Option String} (h : files.read path = .ok answer) :
    files.text? path = answer := by
  rw [text?, h]

theorem text?_eq_some_iff : files.text? path = some text ↔ files.read path = .ok (some text) := by
  unfold text?
  cases files.read path <;> simp

theorem asks_of_text (h : files.read path = .ok (some text)) :
    files.asks path = Shader.includesOf text := by
  rw [asks, text?_of_read h]

theorem asks_of_absent (h : files.read path = .ok none) : files.asks path = [] := by
  rw [asks, text?_of_read h]

/-- The same files, in which an unreadable path is absent. -/
def forgiving (files : PackFiles) : PackFiles where
  location := files.location
  read path := .ok (files.text? path)
  texts := files.texts
  text_mem path text h := files.text_mem path text (text?_eq_some_iff.1 (Except.ok.inj h))

end PackFiles

/-- The paths that some files need for some declared ones. -/
inductive Needed (files : PackFiles) (declared : List String) : String → Prop
  /-- A declared path. -/
  | declared {path : String} (hpath : path ∈ declared) : Needed files declared path
  /-- A path that the text of a needed one asks to include. -/
  | included {file text path : String} (hfile : Needed files declared file)
      (htext : files.text? file = some text) (hpath : path ∈ Shader.includesOf text) :
      Needed files declared path

/-- The needed paths in the order of their first discovery. -/
structure BreadthFirst (files : PackFiles) (declared order : List String) : Prop where
  /-- They are the needed paths. -/
  mem_iff : ∀ path, path ∈ order ↔ Needed files declared path
  /-- Each stands where the declared paths, and then what the texts of the paths in this order ask
  for, mention it for the first time. -/
  eq_eraseDups : order = (declared ++ order.flatMap files.asks).eraseDups

theorem Needed.of_asks {files : PackFiles} {declared : List String} {file path : String}
    (hfile : Needed files declared file) (hpath : path ∈ files.asks file) :
    Needed files declared path := by
  unfold PackFiles.asks at hpath
  cases htext : files.text? file with
  | none =>
      rw [htext] at hpath
      cases hpath
  | some text =>
      rw [htext] at hpath
      exact .included hfile htext hpath

/-- Inside every set with the declared paths that holds what its members ask for. -/
theorem Needed.mem_of_closed {files : PackFiles} {declared : List String} {path : String}
    (h : Needed files declared path) (closed : String → Prop)
    (hdeclared : ∀ p ∈ declared, closed p)
    (hclosed : ∀ file, closed file → ∀ p ∈ files.asks file, closed p) : closed path := by
  induction h with
  | declared hpath => exact hdeclared _ hpath
  | included _ htext hpath ih =>
      refine hclosed _ ih _ ?_
      rw [PackFiles.asks, htext]
      exact hpath

/-- Unreadable paths ask for nothing, so taking them for absent changes nothing that is needed. -/
theorem needed_forgiving {files : PackFiles} {declared : List String} {path : String} :
    Needed files.forgiving declared path ↔ Needed files declared path :=
  ⟨fun h => h.mem_of_closed _ (fun _ hp => .declared hp) fun _ hfile _ hp => hfile.of_asks hp,
    fun h => h.mem_of_closed _ (fun _ hp => .declared hp) fun _ hfile _ hp => hfile.of_asks hp⟩

/-! ### One order of first discovery -/

theorem nodup_eraseDups {α : Type} [BEq α] [LawfulBEq α] : (l : List α) → l.eraseDups.Nodup
  | [] => List.nodup_nil
  | a :: l => by
      rw [List.eraseDups_cons, List.nodup_cons]
      refine ⟨fun h => ?_, nodup_eraseDups (l.filter fun b => !b == a)⟩
      simp at h
  termination_by l => l.length
  decreasing_by exact Nat.lt_succ_of_le (List.length_filter_le ..)

namespace BreadthFirst

variable {files : PackFiles} {declared order order' : List String}

theorem nodup (h : BreadthFirst files declared order) : order.Nodup := by
  rw [h.eq_eraseDups]
  exact nodup_eraseDups _

/-- What the first paths of the order lead to comes first in it. -/
theorem eraseDups_take_prefix (h : BreadthFirst files declared order) (k : Nat) :
    (declared ++ (order.take k).flatMap files.asks).eraseDups <+: order := by
  have hsplit : order = (declared ++ (order.take k).flatMap files.asks ++
      (order.drop k).flatMap files.asks).eraseDups := by
    rw [List.append_assoc, ← List.flatMap_append, List.take_append_drop]
    exact h.eq_eraseDups
  rw [List.eraseDups_append] at hsplit
  exact ⟨_, hsplit.symm⟩

/-- While some path is left, the first ones lead to it. -/
theorem lt_length_of_lt (h : BreadthFirst files declared order) {k : Nat} (hk : k < order.length) :
    k < ((declared ++ (order.take k).flatMap files.asks).eraseDups).length := by
  by_contra hlen
  -- otherwise the first `k` paths hold all that they lead to, so they are all
  have hfound : (declared ++ (order.take k).flatMap files.asks).eraseDups <+: order.take k :=
    List.prefix_take_iff.2 ⟨h.eraseDups_take_prefix k, Nat.not_lt.1 hlen⟩
  have hmem : ∀ path ∈ declared ++ (order.take k).flatMap files.asks, path ∈ order.take k :=
    fun path hpath => hfound.subset (List.mem_eraseDups.2 hpath)
  have hall : order[k] ∈ order.take k := by
    have hneeded := (h.mem_iff _).1 (List.getElem_mem hk)
    refine hneeded.mem_of_closed (· ∈ order.take k) ?_ ?_
    · exact fun p hp => hmem p (List.mem_append_left _ hp)
    · exact fun file hfile p hp =>
        hmem p (List.mem_append_right _ (List.mem_flatMap.2 ⟨file, hfile, hp⟩))
  have hnodup := h.nodup
  rw [← List.take_append_drop k order, List.drop_eq_getElem_cons hk] at hnodup
  exact (List.nodup_append.1 hnodup).2.2 _ hall _ (List.mem_cons_self ..) rfl

/-- The first paths of the order determine the next. -/
theorem take_succ (h : BreadthFirst files declared order) (k : Nat) :
    order.take (k + 1) =
      ((declared ++ (order.take k).flatMap files.asks).eraseDups).take (k + 1) := by
  by_cases hk : k < order.length
  · have hlen := h.lt_length_of_lt hk
    obtain ⟨rest, hrest⟩ := h.eraseDups_take_prefix k
    generalize (declared ++ (order.take k).flatMap files.asks).eraseDups = found at hlen hrest
    rw [← hrest, List.take_append_of_le_length hlen]
  · rw [List.take_of_length_le (Nat.not_lt.1 hk), ← h.eq_eraseDups]

/-- There is only one order of first discovery. -/
theorem unique (h : BreadthFirst files declared order) (h' : BreadthFirst files declared order') :
    order = order' := by
  have htake : ∀ k, order.take k = order'.take k := by
    intro k
    induction k with
    | zero => rfl
    | succ k ih => rw [h.take_succ, h'.take_succ, ih]
  have hlen := htake (max order.length order'.length)
  rwa [List.take_of_length_le (Nat.le_max_left ..),
    List.take_of_length_le (Nat.le_max_right ..)] at hlen

end BreadthFirst

/-! ### What a run asks for -/

namespace Collects

variable {files : PackFiles} {queue missing reads : List String} {sources out : Sources}
  {outcome : Except Failure Sources}

/-- A successful run asks for every path where the queue, and then what it comes to ask for,
mention it for the first time. -/
theorem eq_eraseDups (h : Collects files queue sources missing reads outcome) {asked : List String}
    (hsplits : Splits asked sources missing) (hok : outcome = .ok out) :
    reads = (unasked asked (queue ++ reads.flatMap files.asks)).eraseDups := by
  induction h generalizing asked with
  | done => rfl
  | again hmet _ ih =>
      rw [List.cons_append, unasked_cons_of_mem ((hsplits _).2 hmet)]
      exact ih hsplits hok
  | refused => cases hok
  | @absent path _ _ _ _ _ hnew hread _ ih =>
      rw [List.cons_append, unasked_cons_of_notMem (mt (hsplits _).1 hnew), List.eraseDups_cons,
        ← unasked_cons_asked, List.flatMap_cons, PackFiles.asks_of_absent hread, List.nil_append]
      exact congrArg (path :: ·) (ih (hsplits.absent path) hok)
  | @found path text _ _ _ _ _ hnew hread _ ih =>
      have hreads := ih (hsplits.found path text) hok
      rw [unasked_append, unasked_append, hsplits.unasked_filter, ← unasked_append,
        ← unasked_append, List.append_assoc] at hreads
      rw [List.cons_append, unasked_cons_of_notMem (mt (hsplits _).1 hnew), List.eraseDups_cons,
        ← unasked_cons_asked, List.flatMap_cons, PackFiles.asks_of_text hread]
      exact congrArg (path :: ·) hreads

/-- A run asks for nothing outside of a set that holds what its members ask for. -/
theorem mem_of_closed (h : Collects files queue sources missing reads outcome)
    (closed : String → Prop) (hqueue : ∀ path ∈ queue, closed path)
    (hclosed : ∀ file, closed file → ∀ path ∈ files.asks file, closed path) :
    ∀ path ∈ reads, closed path := by
  induction h with
  | done => exact List.forall_mem_nil _
  | again _ _ ih => exact ih (List.forall_mem_cons.1 hqueue).2
  | refused => exact List.forall_mem_singleton.2 (hqueue _ (List.mem_cons_self ..))
  | absent _ _ _ ih =>
      obtain ⟨hpath, hqueue⟩ := List.forall_mem_cons.1 hqueue
      exact List.forall_mem_cons.2 ⟨hpath, ih hqueue⟩
  | found _ hread _ ih =>
      obtain ⟨hpath, hqueue⟩ := List.forall_mem_cons.1 hqueue
      refine List.forall_mem_cons.2 ⟨hpath, ih fun p hp => ?_⟩
      rcases List.mem_append.1 hp with hp | hp
      · exact hqueue p hp
      · refine hclosed _ hpath p ?_
        rw [PackFiles.asks_of_text hread]
        exact (List.mem_filter.1 hp).1

/-- After a successful run there are the texts of what it asked for, and those from before. -/
theorem get?_eq (h : Collects files queue sources missing reads outcome) (hok : outcome = .ok out)
    (path : String) :
    out.get? path = if path ∈ reads then files.text? path else sources.get? path := by
  induction h with
  | done =>
      cases hok
      rfl
  | again _ _ ih => exact ih hok
  | refused => cases hok
  | @absent file _ _ _ sources _ hnew hread _ ih =>
      have hnone : sources.get? file = files.text? file := by
        rw [PackFiles.text?_of_read hread]
        simpa [NameMap.contains] using fun h => hnew (.inl h)
      rw [ih hok]
      by_cases hpath : path = file
      · simp [hpath, hnone]
      · simp [hpath]
  | @found file text _ _ _ _ _ _ hread _ ih =>
      rw [ih hok, NameMap.get?_insert]
      by_cases hpath : path = file
      · simp [hpath, PackFiles.text?_of_read hread]
      · simp [hpath]

/-- What a successful run asks for can be read. -/
theorem answers (h : Collects files queue sources missing reads outcome) (hok : outcome = .ok out) :
    ∀ path ∈ reads, files.Answers path := by
  induction h with
  | done => exact List.forall_mem_nil _
  | again _ _ ih => exact ih hok
  | refused => cases hok
  | absent _ hread _ ih => exact List.forall_mem_cons.2 ⟨⟨none, hread⟩, ih hok⟩
  | found _ hread _ ih => exact List.forall_mem_cons.2 ⟨⟨_, hread⟩, ih hok⟩

/-- Runs on forgiving files succeed. -/
theorem ok_of_forgiving (h : Collects files.forgiving queue sources missing reads outcome) :
    ∃ out, outcome = .ok out := by
  induction h with
  | done sources => exact ⟨sources, rfl⟩
  | again _ _ ih => exact ih
  | refused _ _ hread => cases hread
  | absent _ _ _ ih => exact ih
  | found _ _ _ ih => exact ih

/-- A run on forgiving files is one on the files, up to the first path that cannot be read. -/
theorem of_forgiving (h : Collects files.forgiving queue sources missing reads outcome) :
    ((∀ path ∈ reads, files.Answers path) ∧ Collects files queue sources missing reads outcome) ∨
      ∃ before path after failure, reads = before ++ path :: after ∧
        (∀ p ∈ before, files.Answers p) ∧ files.read path = .error failure ∧
        Collects files queue sources missing (before ++ [path]) (.error failure) := by
  induction h with
  | done sources missing => exact .inl ⟨List.forall_mem_nil _, .done sources missing⟩
  | again hmet _ ih =>
      refine ih.imp (fun h => ⟨h.1, .again hmet h.2⟩) ?_
      rintro ⟨before, path, after, failure, hreads, hbefore, hread, hrun⟩
      exact ⟨before, path, after, failure, hreads, hbefore, hread, .again hmet hrun⟩
  | refused _ _ hread => cases hread
  | @absent path queue _ reads _ _ hnew hread _ ih =>
      cases hfile : files.read path with
      | error failure =>
          exact .inr ⟨[], path, reads, failure, rfl, List.forall_mem_nil _, hfile,
            .refused queue hnew hfile⟩
      | ok answer =>
          have hnone := (PackFiles.text?_of_read hfile).symm.trans (Except.ok.inj hread)
          subst hnone
          refine ih.imp ?_ ?_
          · exact fun h => ⟨List.forall_mem_cons.2 ⟨⟨none, hfile⟩, h.1⟩, .absent hnew hfile h.2⟩
          · rintro ⟨before, p, after, failure, rfl, hbefore, hread, hrun⟩
            exact ⟨path :: before, p, after, failure, rfl,
              List.forall_mem_cons.2 ⟨⟨none, hfile⟩, hbefore⟩, hread, .absent hnew hfile hrun⟩
  | @found path text queue _ reads _ _ hnew hread _ ih =>
      have hfile : files.read path = .ok (some text) :=
        PackFiles.text?_eq_some_iff.1 (Except.ok.inj hread)
      refine ih.imp ?_ ?_
      · exact fun h => ⟨List.forall_mem_cons.2 ⟨⟨some text, hfile⟩, h.1⟩, .found hnew hfile h.2⟩
      · rintro ⟨before, p, after, failure, rfl, hbefore, hread, hrun⟩
        exact ⟨path :: before, p, after, failure, rfl,
          List.forall_mem_cons.2 ⟨⟨some text, hfile⟩, hbefore⟩, hread, .found hnew hfile hrun⟩

/-- A successful run asks for what the declared paths need, in the order of first discovery. -/
theorem breadthFirst {declared : List String}
    (h : Collects files declared NameMap.empty [] reads (.ok out)) :
    BreadthFirst files declared reads := by
  have hreads : reads = (declared ++ reads.flatMap files.asks).eraseDups := by
    have hnone : unasked [] (declared ++ reads.flatMap files.asks) =
        declared ++ reads.flatMap files.asks := List.filter_eq_self.2 fun _ _ => rfl
    exact (h.eq_eraseDups .start rfl).trans (by rw [hnone])
  refine ⟨fun path => ⟨fun hpath => ?_, fun hneeded => ?_⟩, hreads⟩
  · exact h.mem_of_closed (Needed files declared) (fun _ hp => .declared hp)
      (fun _ hfile _ hp => hfile.of_asks hp) path hpath
  · refine hneeded.mem_of_closed (· ∈ reads) ?_ ?_
    · intro p hp
      rw [hreads]
      exact List.mem_eraseDups.2 (List.mem_append_left _ hp)
    · intro file hfile p hp
      rw [hreads]
      exact List.mem_eraseDups.2
        (List.mem_append_right _ (List.mem_flatMap.2 ⟨file, hfile, hp⟩))

/-- A successful run keeps the texts of the needed paths. -/
theorem get?_eq_some_iff {declared : List String}
    (h : Collects files declared NameMap.empty [] reads (.ok out)) (path text : String) :
    out.get? path = some text ↔
      Needed files declared path ∧ files.read path = .ok (some text) := by
  rw [h.get?_eq rfl, ← h.breadthFirst.mem_iff, ← PackFiles.text?_eq_some_iff]
  split
  · next hpath => simp [hpath]
  · next hpath => simp [hpath]

end Collects

/-! ### Loading -/

/-- Loading a pack with a manifest asks for some paths in order after the manifest, and ends in
texts or in a failure: the loop without a bound does so, and gathering and loading do. -/
structure LoadRun (files : PackFiles) (m : Manifest) (reads : List String)
    (outcome : Except Failure Sources) : Prop where
  /-- The loop comes to its end. -/
  collects : Collects files m.paths NameMap.empty [] reads outcome
  /-- Gathering asks for the same paths. -/
  asked : (gatherSources files m).gathered.asked.reverse = reads
  /-- Gathering ends in the same. -/
  outcome_eq : (gatherSources files m).outcome = outcome
  /-- So does loading. -/
  load : ∀ name json, files.read name = .ok (some json) → Manifest.ofJson json = .ok m →
    loadPack name files =
      ⟨outcome.map fun sources => { manifest := m, sources, origin := some files.location },
        name :: reads⟩

theorem loadPack_eq {files : PackFiles} {m : Manifest} {name json : String}
    (hread : files.read name = .ok (some json)) (hjson : Manifest.ofJson json = .ok m) :
    loadPack name files =
      ⟨(gatherSources files m).outcome.map fun sources =>
          { manifest := m, sources, origin := some files.location },
        name :: (gatherSources files m).gathered.asked.reverse⟩ := by
  unfold loadPack GatherResult.outcome
  simp only [hread, hjson]
  cases (gatherSources files m).failure <;> rfl

/-- A pack is loaded by a successful run. -/
theorem collects_of_loadPack {files : PackFiles} {name : String} {pack : Pack}
    {asked : List String} (h : loadPack name files = ⟨.ok pack, asked⟩) :
    ∃ order, asked = name :: order ∧
      Collects files pack.manifest.paths NameMap.empty [] order (.ok pack.sources) := by
  unfold loadPack at h
  split at h
  · cases h
  · cases h
  · split at h
    · cases h
    · next m _ =>
        have hrun := collects_gatherSources files m
        unfold GatherResult.outcome at hrun
        dsimp only at h
        split at h
        · cases h
        · next hfailure =>
            rw [hfailure] at hrun
            cases h
            exact ⟨_, rfl, hrun⟩

/-- The run of the loop is the run of loading. -/
theorem Collects.loadRun {files : PackFiles} {m : Manifest} {reads : List String}
    {outcome : Except Failure Sources}
    (h : Collects files m.paths NameMap.empty [] reads outcome) :
    LoadRun files m reads outcome := by
  obtain ⟨rfl, rfl⟩ := h.unique (collects_gatherSources files m)
  exact ⟨h, rfl, rfl, fun _ _ => loadPack_eq⟩

/-- **Loading reads exactly the needed paths, breadth first, up to the first that cannot be read,**
whatever the manifest and the files are.

* The needed paths have exactly one order of first discovery, in which none stands twice.
* If all of them can be read, then the loop ends, loading asks for them in this order and for
  nothing else but the manifest before, and the pack has exactly their texts.
* If some cannot, then the loop ends at the first of these in this order, and loading in its
  failure. -/
theorem loadPack_breadthFirst (files : PackFiles) (m : Manifest) :
    ∃ order, BreadthFirst files m.paths order ∧ order.Nodup ∧
      (∀ other, BreadthFirst files m.paths other → other = order) ∧
      ((∀ path, Needed files m.paths path → files.Answers path) →
        ∃ sources : Sources,
          (∀ path text, sources.get? path = some text ↔
            Needed files m.paths path ∧ files.read path = .ok (some text)) ∧
          LoadRun files m order (.ok sources)) ∧
      ((∃ path, Needed files m.paths path ∧ ¬files.Answers path) →
        ∃ before path after failure, order = before ++ path :: after ∧
          (∀ p ∈ before, files.Answers p) ∧ files.read path = .error failure ∧
          LoadRun files m (before ++ [path]) (.error failure)) := by
  have hrun : Collects files.forgiving m.paths NameMap.empty []
      (gatherSources files.forgiving m).gathered.asked.reverse
      (gatherSources files.forgiving m).outcome := collects_gatherSources files.forgiving m
  generalize (gatherSources files.forgiving m).gathered.asked.reverse = order at hrun
  obtain ⟨out, hout⟩ := hrun.ok_of_forgiving
  have horder : BreadthFirst files m.paths order := by
    rw [hout] at hrun
    obtain ⟨hmem, heq⟩ := hrun.breadthFirst
    exact ⟨fun path => (hmem path).trans needed_forgiving, heq⟩
  refine ⟨order, horder, horder.nodup, fun _ hother => hother.unique horder, ?_, ?_⟩
  · intro hanswers
    rcases hrun.of_forgiving with ⟨-, hcollects⟩ | ⟨before, path, after, failure, rfl, -, hread, -⟩
    · rw [hout] at hcollects
      exact ⟨out, hcollects.get?_eq_some_iff, hcollects.loadRun⟩
    · obtain ⟨answer, hanswer⟩ := hanswers path ((horder.mem_iff path).1 (by simp))
      cases hread.symm.trans hanswer
  · rintro ⟨path, hneeded, hrefused⟩
    rcases hrun.of_forgiving with
      ⟨hall, -⟩ | ⟨before, p, after, failure, rfl, hbefore, hread, hstop⟩
    · exact absurd (hall path ((horder.mem_iff path).2 hneeded)) hrefused
    · exact ⟨before, p, after, failure, rfl, hbefore, hread, hstop.loadRun⟩

/-- A manifest that declares one shader. -/
def circleManifest : String :=
  "\x7b\"pipelines\":\x7b\"p\":\x7b\"vertex\":\"a.vsh\"\x7d\x7d\x7d"

/-- Two shaders that ask for each other, the first for one that is not there as well. -/
def circle (unreadable : List String) : PackFiles :=
  .ofTexts "mem" (NameMap.ofList [("pack.json", circleManifest),
    ("a.vsh", "#include \"b.glsl\"\n#include \"gone.glsl\"\n"),
    ("b.glsl", "#include \"a.vsh\"\n")]) unreadable

/-- Files that ask for each other are read once each; when one of them cannot be read, it is the
last one asked for. -/
theorem loadPack_breadthFirst_circle :
    ∃ m order before, ∃ sources : Sources, BreadthFirst (circle []) m.paths order ∧
      sources.get? "b.glsl" = some "#include \"a.vsh\"\n" ∧
      loadPack "pack.json" (circle []) =
        ⟨.ok { manifest := m, sources, origin := some "mem" }, "pack.json" :: order⟩ ∧
      loadPack "pack.json" (circle ["b.glsl"]) =
        ⟨.error (.file "unreadable"), "pack.json" :: (before ++ ["b.glsl"])⟩ := by
  obtain ⟨m, hjson, hpaths⟩ :
      ∃ m, Manifest.ofJson circleManifest = .ok m ∧ m.paths = ["a.vsh"] := by
    have hread : (Manifest.ofJson circleManifest).toOption.map Manifest.paths = some ["a.vsh"] := by
      decide +kernel
    cases hjson : Manifest.ofJson circleManifest with
    | error fault =>
        rw [hjson] at hread
        cases hread
    | ok m =>
        rw [hjson] at hread
        exact ⟨m, rfl, Option.some.inj hread⟩
  have hneeded : ∀ unreadable, "a.vsh" ∉ unreadable →
      Needed (circle unreadable) m.paths "b.glsl" := by
    intro unreadable hreadable
    have hdeclared : Needed (circle unreadable) m.paths "a.vsh" := .declared (by simp [hpaths])
    have htext : (circle unreadable).text? "a.vsh" =
        some "#include \"b.glsl\"\n#include \"gone.glsl\"\n" := by
      simp only [PackFiles.text?, circle, PackFiles.ofTexts, if_neg hreadable]
      decide +kernel
    exact .included hdeclared htext (by decide +kernel)
  -- everything can be read
  obtain ⟨order, horder, -, -, hall, -⟩ := loadPack_breadthFirst (circle []) m
  obtain ⟨sources, hsources, hrun⟩ := hall fun path _ => ⟨_, rfl⟩
  -- all but one can
  obtain ⟨_, -, -, -, -, hstops⟩ := loadPack_breadthFirst (circle ["b.glsl"]) m
  obtain ⟨before, path, after, failure, -, -, hread, hstop⟩ :=
    hstops ⟨"b.glsl", hneeded _ (by simp), by rintro ⟨answer, hanswer⟩; cases hanswer⟩
  have hpath : path = "b.glsl" ∧ failure = .file "unreadable" := by
    simp only [circle, PackFiles.ofTexts] at hread
    split at hread
    · next h =>
        cases hread
        exact ⟨List.mem_singleton.1 h, rfl⟩
    · cases hread
  obtain ⟨rfl, rfl⟩ := hpath
  refine ⟨m, order, before, sources, horder, ?_, ?_, ?_⟩
  · exact (hsources _ _).2 ⟨hneeded [] (by simp), by rfl⟩
  · exact hrun.load "pack.json" circleManifest rfl hjson
  · exact hstop.load "pack.json" circleManifest rfl hjson

end Shaderworks
