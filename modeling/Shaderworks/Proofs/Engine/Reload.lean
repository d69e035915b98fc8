/-
**Starting over leaves nothing behind.**

An engine that starts over has a past: pipelines that were built, overrides, a selected pack, and a
cache.  The pipelines are disposed of and the rest is dropped, but for the cache, and that has only
what the compiler would make again.  So two engines may take the same packs side by side, one that
starts over and one that is new, and they never differ in anything but where the bytecode came from.

Main definitions:

* `Engine.Twins` — two engines that have taken the same packs since they had nothing.

Main results:

* `Engine.Twins.loadNext` — one more pack keeps them twins;
* `Engine.twins_taken` — so do several;
* `Engine.reload_eq_new` — **an engine that starts over is like a new one.**
-/

import Shaderworks.Proofs.Engine.LoadOutcome
import Shaderworks.Proofs.Engine.AutoOverride

set_option autoImplicit false

namespace Shaderworks

variable {τ η : Type}

namespace Engine

variable {tools : Toolchain} {depth : Nat} {jobs : List CompileJob} {pack : Pack}

/-! ### One pack, side by side -/

/-- What the report on a pack says does not depend on where the shaders came from. -/
theorem reportOn_congr {fresh fresh' : List (Pipeline η)}
    (h : fresh.map Pipeline.asCompiled = fresh'.map Pipeline.asCompiled) :
    reportOn pack fresh = reportOn pack fresh' := by
  have hlength : fresh.length = fresh'.length := by
    simpa using congrArg List.length h
  have hnames : fresh.map Pipeline.name = fresh'.map Pipeline.name := by
    have hmap := congrArg (List.map Pipeline.name) h
    rwa [List.map_map, List.map_map] at hmap
  rw [reportOn, reportOn, hlength, hnames]

theorem inMainPass_of_alike {e e' : Engine τ η} (h : e.catalog.Alike e'.catalog) (name : String) :
    e.inMainPass name = e'.inMainPass name := by
  have hsame := h.same name
  unfold inMainPass
  cases hp : e.catalog.get? name with
  | none =>
      rw [hp, Option.map_none, eq_comm, Option.map_eq_none_iff] at hsame
      rw [hsame]
  | some p =>
      rw [hp, Option.map_some, eq_comm, Option.map_eq_some_iff] at hsame
      obtain ⟨q, hq, heq⟩ := hsame
      have hdraw : q.asCompiled.drawState = p.asCompiled.drawState := by rw [heq]
      rw [hq]
      exact congrArg (fun d => d.pass == .main) hdraw.symm

/-- Two engines that have taken the same packs since they had nothing, one of which has done some
events before. -/
structure Twins (tools : Toolchain) (depth : Nat) (jobs : List CompileJob)
    (events : List (HostEvent τ η)) (p q : Progress τ η) : Prop where
  sound : p.engine.compiler.Sound tools depth jobs
  sound' : q.engine.compiler.Sound tools depth jobs
  shelf : p.engine.shelf = q.engine.shelf
  selected : p.engine.shelf.selected = none
  alike : p.engine.catalog.Alike q.engine.catalog
  summary : p.summary = q.summary
  mainNames : p.mainNames = q.mainNames
  /-- Nobody holds a handle, so there is nothing to release. -/
  held : p.engine.catalog.handlesHeld = []
  events : p.engine.catalog.events = events

/-- **One more pack keeps them twins.** -/
theorem Twins.loadNext {events : List (HostEvent τ η)} {p q : Progress τ η}
    (h : Twins tools depth jobs events p q) (hkeys : Compiler.KeysApart tools depth jobs)
    (hsub : pack.jobs ⊆ jobs) :
    Twins tools depth jobs events (Engine.loadNext tools p pack) (Engine.loadNext tools q pack) := by
  cases hcheck : pack.check with
  | error defect =>
      rw [Engine.loadNext, Engine.loadNext, loadPack_of_defect hcheck, loadPack_of_defect hcheck]
      exact ⟨h.sound, h.sound', h.shelf, h.selected, h.alike, congrArg LoadSummary.reject h.summary,
        h.mainNames, h.held, h.events⟩
  | ok _ =>
      obtain ⟨compiler, fresh, hsound, hfresh, heq⟩ := loadPack_of_ok h.sound hsub hcheck
      obtain ⟨compiler', fresh', hsound', hfresh', heq'⟩ := loadPack_of_ok h.sound' hsub hcheck
      have hsame : fresh.map Pipeline.asCompiled = fresh'.map Pipeline.asCompiled :=
        (hfresh hkeys).trans (hfresh' hkeys).symm
      have hwaits : ∀ r ∈ fresh, r.phase = .waiting := by
        intro r hr
        obtain ⟨spec, -, hok⟩ := Pack.mem_compiled.1 (hfresh hkeys ▸ List.mem_map_of_mem hr)
        exact (Pack.fields_of_uncached hok).2.2.2
      have hhandles : ∀ r ∈ fresh, r.handle? = none := fun r hr => by
        rw [Pipeline.handle?, hwaits r hr]
      have halike := Catalog.Alike.registerAll hsame hwaits h.alike
      obtain ⟨hheld, hevents⟩ := Catalog.idle_registerAll hhandles h.held
      rw [Engine.loadNext, Engine.loadNext, heq, heq']
      refine ⟨hsound, hsound', congrArg (Shelf.register · pack) h.shelf, h.selected, halike, ?_, ?_,
        hheld, hevents.trans h.events⟩
      · dsimp only
        rw [h.summary, reportOn_congr hsame]
      · dsimp only
        rw [h.mainNames, reportOn_congr hsame]
        refine congrArg (q.mainNames ++ ·) (List.filter_congr fun name _ => ?_)
        exact inMainPass_of_alike halike name

/-- **Two engines that have nothing stay twins** over any packs. -/
theorem twins_taken {e e' : Engine τ η} (packs : List Pack)
    (h : Twins tools depth jobs e.catalog.events { engine := e } { engine := e' })
    (hkeys : Compiler.KeysApart tools depth jobs) (hsub : packs.flatMap Pack.jobs ⊆ jobs) :
    Twins tools depth jobs e.catalog.events (e.taken tools packs) (e'.taken tools packs) := by
  induction packs using List.reverseRecOn with
  | nil => exact h
  | append_singleton packs pack ih =>
      rw [List.flatMap_append, List.flatMap_singleton] at hsub
      rw [taken_concat, taken_concat]
      exact (ih fun job hjob => hsub (List.mem_append_left _ hjob)).loadNext hkeys
        fun job hjob => hsub (List.mem_append_right _ hjob)

/-! ### Overriding, side by side -/

/-- Overriding by name goes over the overrides and nothing else. -/
theorem overrideMain_frame (names : List String) (registered : Nat) (c : Catalog τ η) :
    (overrideMain c names registered).pipelines = c.pipelines ∧
      (overrideMain c names registered).events = c.events :=
  overrideMain_rel (fun c' _ => c'.pipelines = c.pipelines ∧ c'.events = c.events)
    (fun c' _ name h => by rwa [Catalog.setOverride_snd]) (fun _ _ h => h) c c ⟨rfl, rfl⟩ names
    registered

theorem alike_overrideMain {c c' : Catalog τ η} (h : c.Alike c') (names : List String)
    (registered : Nat) :
    (overrideMain c names registered).Alike (overrideMain c' names registered) :=
  overrideMain_rel Catalog.Alike (fun _ _ name h => h.setOverride name name)
    (fun _ _ h => h.setEnabled true) c c' h names registered

/-- The engine when all packs are taken and their pipelines override the host's, if the settings say
so. -/
def Progress.finished (p : Progress τ η) : Engine τ η :=
  if p.engine.settings.autoOverride then
    { p.engine with catalog := overrideMain p.engine.catalog p.mainNames p.summary.registered }
  else p.engine

theorem loadPacks_eq_finished (e : Engine τ η) (packs : List Pack) :
    e.loadPacks tools packs =
      ((e.taken tools packs).summary, (e.taken tools packs).finished) := by
  unfold loadPacks Progress.finished taken
  dsimp only
  split_ifs <;> rfl

/-- Twins are still twins when they have finished, if both override or neither does. -/
theorem Twins.finish {events : List (HostEvent τ η)} {p q : Progress τ η}
    (h : Twins tools depth jobs events p q)
    (hauto : q.engine.settings.autoOverride = p.engine.settings.autoOverride) :
    Twins tools depth jobs events { p with engine := p.finished } { q with engine := q.finished } := by
  unfold Progress.finished
  rw [hauto]
  split
  · obtain ⟨hpipelines, hevents⟩ :=
      overrideMain_frame p.mainNames p.summary.registered p.engine.catalog
    have halike := alike_overrideMain h.alike p.mainNames p.summary.registered
    rw [← h.mainNames, ← h.summary]
    refine ⟨h.sound, h.sound', h.shelf, h.selected, halike, rfl, rfl, ?_, hevents.trans h.events⟩
    rw [Catalog.handlesHeld, hpipelines]
    exact h.held
  · exact h

/-! ### Starting over -/

/-- **An engine that starts over is like a new one.**  Take any engine that can be reached, a new
engine with the same settings and an empty cache directory of its own, and any packs.  If different
shaders have different keys, and one engine starts over with the packs and the other takes them:

* starting over releases all handles that were held, each one once, and nothing else happens to the
  host; nobody holds a handle afterwards;
* the two summaries are the same, the packs are on the shelf in the same order, and none is
  selected;
* the same names are in use, and their pipelines are the same, but for where the bytecode came from;
  all of them wait;
* the overrides are the same, and whether overriding is enabled. -/
theorem reload_eq_new {e new : Engine τ η} (h : Reached tools jobs e) {dir : Path}
    {files files' : FileTree}
    (hnew : start { e.settings with cacheDir := dir } files = (.ok new, files'))
    (hempty : ∀ key, new.files.contentAt (new.compiler.cache.home key) = none) (packs : List Pack)
    (hkeys : Compiler.KeysApart tools e.settings.maxDepth (jobs ++ packs.flatMap Pack.jobs)) :
    (∃ handles : List η,
        (e.reload tools packs).2.catalog.events =
          e.catalog.events ++ handles.map HostEvent.released ∧
        handles.Perm e.catalog.handlesHeld ∧ (e.reload tools packs).2.catalog.handlesHeld = []) ∧
      ((e.reload tools packs).1 = (new.loadPacks tools packs).1 ∧
        (e.reload tools packs).2.shelf = (new.loadPacks tools packs).2.shelf ∧
        (e.reload tools packs).2.shelf.selected = none) ∧
      ((e.reload tools packs).2.catalog.names = (new.loadPacks tools packs).2.catalog.names ∧
        ∀ name,
          ((e.reload tools packs).2.catalog.get? name).map Pipeline.asCompiled =
            ((new.loadPacks tools packs).2.catalog.get? name).map Pipeline.asCompiled ∧
          ∀ p, (e.reload tools packs).2.catalog.get? name = some p → p.phase = .waiting) ∧
      (e.reload tools packs).2.catalog.overrides = (new.loadPacks tools packs).2.catalog.overrides ∧
        (e.reload tools packs).2.catalog.enabled = (new.loadPacks tools packs).2.catalog.enabled := by
  have hproper := h.proper
  obtain ⟨handles, hevents, hperm, hheld⟩ := Catalog.releases_clear hproper.managed
  have hblank := blank_start hnew
  have hfields : new.settings = { e.settings with cacheDir := dir } ∧ new.shelf = {} := by
    unfold start at hnew
    split at hnew
    · cases hnew
    · cases hnew; exact ⟨rfl, rfl⟩
  -- Side by side the two engines take the packs, the one cleared and the other new.
  have htwins : Twins tools e.settings.maxDepth (jobs ++ packs.flatMap Pack.jobs)
      e.clear.catalog.events (e.clear.taken tools packs) (new.taken tools packs) := by
    refine twins_taken packs ?_ hkeys (List.subset_append_right ..)
    have hsound := (proper_start tools hnew hempty).sound
    rw [hfields.1] at hsound
    exact ⟨hproper.sound.mono (List.subset_append_left ..), hsound.mono (List.nil_subset _),
      hfields.2.symm, rfl, .of_blank (blank_clear e) hblank, rfl, rfl, hheld, rfl⟩
  have hauto : (new.taken tools packs).engine.settings.autoOverride =
      (e.clear.taken tools packs).engine.settings.autoOverride := by
    rw [(taken_keeps tools packs hblank.indexed).2.1,
      (taken_keeps tools packs (blank_clear e).indexed).2.1, hfields.1]
    rfl
  have hfinished := htwins.finish hauto
  rw [reload, loadPacks_eq_finished, loadPacks_eq_finished]
  exact ⟨⟨handles, hfinished.events.trans hevents, hperm, hfinished.held⟩,
    ⟨hfinished.summary, hfinished.shelf, hfinished.selected⟩,
    ⟨hfinished.alike.names_eq, fun name => ⟨hfinished.alike.same name, hfinished.alike.waits name⟩⟩,
    hfinished.alike.overrides, hfinished.alike.enabled⟩

/-- An engine with a pipeline that was built and overrides the host, and with a selected pack, starts
over with that pack. -/
theorem reload_eq_new_occupied :
    let used := occupied "cache" "good" 7
    let routed : Engine Unit Nat :=
      { used with catalog := used.catalog.afterStep (.call (.setOverride "host" "good")) }
    let e : Engine Unit Nat := { routed with shelf := ((Shelf.empty.register mixed).select "mixed").2 }
    let new := inDirectory "other"
    Reached Compiler.echo [] e ∧
      Compiler.KeysApart Compiler.echo e.settings.maxDepth ([] ++ [mixed].flatMap Pack.jobs) ∧
      (e.catalog.overrides.get? "host" = some "good" ∧ e.shelf.selected = some 0) ∧
      (e.reload Compiler.echo [mixed]).2.catalog.events = e.catalog.events ++ [.released 7] ∧
      (e.reload Compiler.echo [mixed]).1 = (new.loadPacks Compiler.echo [mixed]).1 ∧
      (e.reload Compiler.echo [mixed]).2.shelf.selected = none ∧
      ((e.reload Compiler.echo [mixed]).2.catalog.get? "good").map Pipeline.asCompiled =
        ((new.loadPacks Compiler.echo [mixed]).2.catalog.get? "good").map Pipeline.asCompiled ∧
      (e.reload Compiler.echo [mixed]).2.catalog.overrides =
        (new.loadPacks Compiler.echo [mixed]).2.catalog.overrides := by
  intro used routed e new
  have hrouted : Reached Compiler.echo [] routed :=
    (reached_occupied "good" 7).catalog (.call (.setOverride "host" "good"))
  have hreached : Reached Compiler.echo [] e := hrouted.shelve _
  have hkeys : Compiler.KeysApart Compiler.echo e.settings.maxDepth
      ([] ++ [mixed].flatMap Pack.jobs) := by
    rw [List.nil_append, List.flatMap_singleton]
    exact keysApart_mixed
  have hnew : start { e.settings with cacheDir := "other" } FileTree.empty =
      (.ok new, new.files) := start_inDirectory (by decide +kernel)
  have hheld : e.catalog.handlesHeld = [7] := by decide +kernel
  obtain ⟨⟨handles, hevents, hperm, -⟩, ⟨hsummary, -, hselected⟩, ⟨-, hpipelines⟩, hoverrides, -⟩ :=
    reload_eq_new hreached hnew (Cache.contentAt_home_of_namesIn (by decide +kernel)) [mixed] hkeys
  rw [hheld, List.perm_singleton] at hperm
  subst hperm
  exact ⟨hreached, hkeys, ⟨by decide +kernel, by decide +kernel⟩, hevents, hsummary, hselected,
    (hpipelines "good").1, hoverrides⟩

end Engine

end Shaderworks
