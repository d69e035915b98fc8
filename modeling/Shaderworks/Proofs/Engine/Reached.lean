/-
**The engines that can be reached.**

A new engine takes packs, one by one, several at a time or all those of a directory, and starts over;
its pipelines are built, disposed of and made to override the host's; packs are selected; shaders are
compiled on their own; the cache is asked, evicted and cleared; and the files around change.  All of
this comes down to a few kinds of steps.  Whatever the steps are, the cache has only what the
compiler made, as long as it had no entry in the beginning and nobody else writes to its directory.

Main definitions:

* `Engine.Reached` — an engine after some steps, with the shaders it was asked to compile;
* `Engine.Proper` — what holds of every engine that can be reached.

Main results:

* `Engine.Reached.loadPacks`, `Engine.Reached.reload`, `Engine.Reached.loadFrom`,
  `Engine.Reached.reloadFrom` — taking packs comes down to these steps;
* `Engine.Reached.proper` — **the cache of every engine that can be reached is sound**, and its
  catalog is in order.
-/

import Shaderworks.Proofs.Engine.Compiling

set_option autoImplicit false

namespace Shaderworks

variable {τ η : Type}

/-- Discovering packs brings no file anywhere. -/
theorem contentAt_discover {manifestName : String} {files : FileTree} {dir : Path} {place : Place}
    {content : Bytes} (h : (discover manifestName files dir).2.contentAt place = some content) :
    files.contentAt place = some content := by
  have hfiles : (discover manifestName files dir).2 = (files.createDirectories dir).2 := by
    unfold discover
    rcases files.createDirectories dir with ⟨_ | fault, made⟩
    · dsimp only
      split <;> rfl
    · rfl
  rw [hfiles] at h
  exact FileTree.contentAt_createDirectories h

namespace Engine

/-- An engine that some steps have led to, with the shaders that it was asked to compile. -/
inductive Reached (tools : Toolchain) : List CompileJob → Engine τ η → Prop
  /-- An engine is new, and no key has a file in its directory. -/
  | start {settings : Settings} {files files' : FileTree} {e : Engine τ η}
      (hstart : Engine.start settings files = (.ok e, files'))
      (hempty : ∀ key, e.files.contentAt (e.compiler.cache.home key) = none) : Reached tools [] e
  /-- A pack is taken. -/
  | loadPack {jobs : List CompileJob} {e : Engine τ η} (h : Reached tools jobs e) (pack : Pack) :
      Reached tools (jobs ++ pack.jobs) (e.loadPack tools pack).2
  /-- The catalog is called, or a pipeline is built or disposed of by whoever holds on to it. -/
  | catalog {jobs : List CompileJob} {e : Engine τ η} (h : Reached tools jobs e)
      (step : CatalogStep τ η) : Reached tools jobs { e with catalog := e.catalog.afterStep step }
  /-- Packs are put on the shelf, selected or dropped. -/
  | shelve {jobs : List CompileJob} {e : Engine τ η} (h : Reached tools jobs e) (shelf : Shelf) :
      Reached tools jobs { e with shelf }
  /-- A shader is compiled on its own. -/
  | compile {jobs : List CompileJob} {e : Engine τ η} (h : Reached tools jobs e)
      (job : CompileJob) :
      Reached tools (jobs ++ [job]) { e with compiler := (e.compiler.compile tools job).2 }
  /-- The cache is asked for a key. -/
  | look {jobs : List CompileJob} {e : Engine τ η} (h : Reached tools jobs e) (key : CacheKey) :
      Reached tools jobs
        { e with compiler := { e.compiler with cache := (e.compiler.cache.get key).2 } }
  /-- The cache drops what is in memory. -/
  | evict {jobs : List CompileJob} {e : Engine τ η} (h : Reached tools jobs e) :
      Reached tools jobs { e with compiler := { e.compiler with cache := e.compiler.cache.evict } }
  /-- The cache is emptied. -/
  | clearCache {jobs : List CompileJob} {e : Engine τ η} (h : Reached tools jobs e) :
      Reached tools jobs { e with compiler := { e.compiler with cache := e.compiler.cache.clear } }
  /-- The files around the engine change, but nobody writes a file of the cache. -/
  | files {jobs : List CompileJob} {e : Engine τ η} (h : Reached tools jobs e) {files : FileTree}
      (hfiles : ∀ key bytecode, files.contentAt (e.compiler.cache.home key) = some bytecode →
        e.files.contentAt (e.compiler.cache.home key) = some bytecode) :
      Reached tools jobs (e.withFiles files)

/-! ### What is reached by taking packs -/

section Reached

variable {tools : Toolchain} {jobs : List CompileJob} {e : Engine τ η}

/-- A pack that is refused changes nothing, so it takes no step. -/
theorem Reached.loadNext {p : Progress τ η} (h : Reached tools jobs p.engine) (pack : Pack) :
    Reached tools (jobs ++ pack.jobs) (Engine.loadNext tools p pack).engine := by
  have hstep := h.loadPack pack
  unfold Engine.loadNext
  rcases hload : p.engine.loadPack tools pack with ⟨defect | report, engine⟩
  · rw [hload] at hstep
    have hcheck : pack.check = .error defect := by
      unfold Engine.loadPack at hload
      split at hload
      · next hcheck => cases hload; exact hcheck
      · cases hload
    rw [Pack.jobs, hcheck, List.append_nil]
    exact h
  · rw [hload] at hstep
    exact hstep

theorem Reached.taken (h : Reached tools jobs e) (packs : List Pack) :
    Reached tools (jobs ++ packs.flatMap Pack.jobs) (e.taken tools packs).engine := by
  induction packs using List.reverseRecOn with
  | nil => rwa [List.flatMap_nil, List.append_nil]
  | append_singleton packs pack ih =>
      rw [taken_concat, List.flatMap_append, ← List.append_assoc, List.flatMap_singleton]
      exact ih.loadNext pack

theorem Reached.overrideMain (h : Reached tools jobs e) (names : List String) (registered : Nat) :
    Reached tools jobs { e with catalog := Engine.overrideMain e.catalog names registered } :=
  overrideMain_rel (fun c _ => Reached tools jobs { e with catalog := c })
    (fun _ _ name hc => hc.catalog (.call (.setOverride name name)))
    (fun _ _ hc => hc.catalog (.call (.setEnabled true))) e.catalog e.catalog h names registered

/-- Taking several packs comes down to these steps. -/
theorem Reached.loadPacks (h : Reached tools jobs e) (packs : List Pack) :
    Reached tools (jobs ++ packs.flatMap Pack.jobs) (e.loadPacks tools packs).2 := by
  have htaken := h.taken packs
  unfold Engine.loadPacks
  unfold Engine.taken at htaken
  dsimp only
  split
  · exact htaken.overrideMain _ _
  · exact htaken

theorem Reached.clear (h : Reached tools jobs e) : Reached tools jobs e.clear :=
  (h.catalog (.call .clear)).shelve {}

/-- So does starting over. -/
theorem Reached.reload (h : Reached tools jobs e) (packs : List Pack) :
    Reached tools (jobs ++ packs.flatMap Pack.jobs) (e.reload tools packs).2 :=
  h.clear.loadPacks packs

theorem Reached.discover (h : Reached tools jobs e) (dir : Path) :
    Reached tools jobs (e.withFiles (Shaderworks.discover e.settings.manifestName e.files dir).2) :=
  h.files fun _ _ hcontent => contentAt_discover hcontent

/-- And taking the packs of a directory. -/
theorem Reached.loadFrom (h : Reached tools jobs e) (dir : Path) :
    Reached tools (jobs ++
        (Shaderworks.discover e.settings.manifestName e.files dir).1.flatMap Pack.jobs)
      (e.loadFrom tools dir).2 :=
  (h.discover dir).loadPacks _

theorem Reached.reloadFrom (h : Reached tools jobs e) (dir : Path) :
    Reached tools (jobs ++
        (Shaderworks.discover e.settings.manifestName e.files dir).1.flatMap Pack.jobs)
      (e.reloadFrom tools dir).2 :=
  (h.discover dir).reload _

/-! ### What holds of all of them -/

/-- The compiler of an engine is sound for some jobs, and its catalog is in order. -/
structure Proper (tools : Toolchain) (jobs : List CompileJob) (e : Engine τ η) : Prop where
  sound : e.compiler.Sound tools e.settings.maxDepth jobs
  managed : e.catalog.Managed

/-- A new engine is proper. -/
theorem proper_start (tools : Toolchain) {settings : Settings} {files files' : FileTree}
    (hstart : Engine.start settings files = (.ok e, files'))
    (hempty : ∀ key, e.files.contentAt (e.compiler.cache.home key) = none) :
    Proper tools [] e := by
  rcases hmade : files.createDirectories settings.cacheDir with ⟨_ | fault, made⟩
  · simp only [Engine.start, Cache.mount, hmade] at hstart
    cases hstart
    refine ⟨⟨rfl, fun key bytecode hmemory => ?_, fun key bytecode hcontent => ?_⟩, .empty⟩
    · cases hmemory
    · cases (hempty key).symm.trans hcontent
  · simp only [Engine.start, Cache.mount, hmade] at hstart
    cases hstart

/-- A pack keeps an engine proper, with its shaders among the jobs. -/
theorem Proper.loadPack (h : Proper tools jobs e) (pack : Pack) :
    Proper tools (jobs ++ pack.jobs) (e.loadPack tools pack).2 := by
  have hsound := h.sound.mono (List.subset_append_left jobs pack.jobs)
  cases hcheck : pack.check with
  | error defect =>
      rw [loadPack_of_defect hcheck]
      exact ⟨hsound, h.managed⟩
  | ok _ =>
      obtain ⟨compiler, fresh, hcompiler, -, heq⟩ :=
        loadPack_of_ok hsound (List.subset_append_right jobs pack.jobs) hcheck
      rw [heq]
      exact ⟨hcompiler, h.managed.registerAll⟩

/-- **Every engine that can be reached is proper.** -/
theorem Reached.proper (h : Reached tools jobs e) : Proper tools jobs e := by
  induction h with
  | start hstart hempty => exact proper_start tools hstart hempty
  | loadPack h pack ih => exact ih.loadPack pack
  | catalog h step ih => exact ⟨ih.sound, ih.managed.afterStep step⟩
  | shelve h shelf ih => exact ⟨ih.sound, ih.managed⟩
  | @compile jobs e h job ih =>
      have hsound := ih.sound.mono (List.subset_append_left jobs [job])
      exact ⟨hsound.compile (by simp), ih.managed⟩
  | look h key ih => exact ⟨⟨ih.sound.maxDepth, ih.sound.kept.get key⟩, ih.managed⟩
  | evict h ih => exact ⟨⟨ih.sound.maxDepth, ih.sound.kept.evict⟩, ih.managed⟩
  | clearCache h ih => exact ⟨⟨ih.sound.maxDepth, ih.sound.kept.clear⟩, ih.managed⟩
  | files h hfiles ih => exact ⟨⟨ih.sound.maxDepth, ih.sound.kept.withFiles hfiles⟩, ih.managed⟩

end Reached

end Engine

end Shaderworks
