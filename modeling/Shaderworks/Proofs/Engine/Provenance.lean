/-
**Where the pipelines in use come from.**

Taking a pack changes two stores, each by its own key: the shelf by the name of the pack, the
catalog by the names of its pipelines.  A pack that takes the place of an earlier version of itself
therefore replaces the pipelines that it registers, and no others.  What remains of the earlier
version stays in use, though the version is listed no more, until some pack registers a pipeline of
the same name or the engine starts over.

Main definitions:

* `EngineStep`, `EngineRecord`, `EngineRecord.after` — what may happen to an engine, and the packs
  it accepted since it started over (`EngineRecord.map_fst_after` says which ones these are);
* `lastLister` — the last accepted pack whose report lists a name;
* `Engine.PacksListed` — the pack of every pipeline in use is listed, and declares it;
* `Engine.Stems` — both stores hold what the accepted packs say.

Main results:

* `Engine.Stems.loadPack`, `Engine.Stems.loadPacks`, `Engine.Stems.notice` — each step keeps that;
* `EngineRecord.stems_after` — so it holds after every history;
* `EngineRecord.provenance` — **a pipeline in use belongs to the last pack that registered its
  name**, and this pack is listed unless a later one has its name;
* `EngineRecord.replaced_version_overrides` — a version that was replaced may go on overriding.
-/

import Shaderworks.Proofs.Engine.Accepted
import Shaderworks.Proofs.Pack.Selection
import Shaderworks.Proofs.Pipeline.OverrideHistory

set_option autoImplicit false

namespace Shaderworks

variable {τ η : Type}

/-- No call to the catalog changes the pack of a pipeline. -/
theorem Pipeline.pack_afterCall (p : Pipeline η) (call : CatalogCall τ η) :
    (p.afterCall call).pack = p.pack := by
  cases call with
  | activate answer name template =>
      rw [afterCall]
      split
      · unfold afterBuild build
        cases p.phase with
        | waiting => cases answer (p.request template) <;> rfl
        | built handle => rfl
        | disposed => rfl
      · rfl
  | _ => rfl

/-! ### Histories -/

/-- What may happen to an engine.  The tools are those that the host has by then. -/
inductive EngineStep (τ η : Type) where
  /-- A pack is taken. -/
  | loadPack (tools : Toolchain) (pack : Pack)
  /-- Several packs are taken. -/
  | loadPacks (tools : Toolchain) (packs : List Pack)
  /-- Everything is dropped, and packs are taken. -/
  | reload (tools : Toolchain) (packs : List Pack)
  /-- The host announces a template, and answers a request to build from it. -/
  | notice (answer : BuildRequest τ → Except Cause η) (name : String) (template : τ)

/-- The packs that are accepted by the end of a step, if some were before. -/
def EngineStep.kept (known : List Pack) : EngineStep τ η → List Pack
  | .loadPack _ pack => known ++ [pack].filter Pack.passes
  | .loadPacks _ packs => known ++ packs.filter Pack.passes
  | .reload _ packs => packs.filter Pack.passes
  | .notice _ _ _ => known

/-- An engine, with the packs that it accepted since it started over, each with its report. -/
structure EngineRecord (τ η : Type) where
  /-- The engine. -/
  engine : Engine τ η
  /-- The accepted packs, in order. -/
  accepted : List (Pack × LoadReport) := []

namespace EngineRecord

/-- The record after one more step. -/
def next (r : EngineRecord τ η) : EngineStep τ η → EngineRecord τ η
  | .loadPack tools pack =>
      { engine := (r.engine.loadPack tools pack).2
        accepted := r.accepted ++ r.engine.accepted tools [pack] }
  | .loadPacks tools packs =>
      { engine := (r.engine.loadPacks tools packs).2
        accepted := r.accepted ++ r.engine.accepted tools packs }
  | .reload tools packs =>
      { engine := (r.engine.reload tools packs).2
        accepted := r.engine.clear.accepted tools packs }
  | .notice answer name template =>
      { r with engine :=
          { r.engine with catalog := r.engine.catalog.notice answer name template } }

/-- The record of an engine after a history. -/
def after (e : Engine τ η) (steps : List (EngineStep τ η)) : EngineRecord τ η :=
  steps.foldl next { engine := e }

/-- Which packs are accepted depends on the packs only. -/
theorem map_fst_after (e : Engine τ η) (steps : List (EngineStep τ η)) :
    (after e steps).accepted.map Prod.fst = steps.foldl EngineStep.kept [] := by
  induction steps using List.reverseRecOn with
  | nil => rfl
  | append_singleton steps step ih =>
      rw [after, List.foldl_concat, List.foldl_concat, ← ih]
      cases step with
      | reload tools packs => exact Engine.map_fst_accepted tools _ packs
      | notice answer name template => rfl
      | _ => exact List.map_append.trans (congrArg _ (Engine.map_fst_accepted _ _ _))

end EngineRecord

/-! ### The last pack that lists a name -/

/-- The last of some accepted packs whose report lists a name. -/
def lastLister (known : List (Pack × LoadReport)) (name : String) : Option Pack :=
  (known.reverse.find? fun entry => entry.2.pipelines.contains name).map Prod.fst

theorem lastLister_concat (known : List (Pack × LoadReport)) (pack : Pack) (report : LoadReport)
    (name : String) :
    lastLister (known ++ [(pack, report)]) name =
      if name ∈ report.pipelines then some pack else lastLister known name := by
  unfold lastLister
  rw [List.reverse_append, List.reverse_singleton, List.singleton_append, List.find?_cons]
  by_cases hlisted : name ∈ report.pipelines
  · rw [if_pos hlisted, List.contains_iff_mem.2 hlisted]
    rfl
  · have hnot : report.pipelines.contains name = false := by simpa using hlisted
    rw [if_neg hlisted, hnot]

/-- The last pack that lists a name, among the others. -/
theorem lastLister_eq_some_iff {known : List (Pack × LoadReport)} {name : String} {pack : Pack} :
    lastLister known name = some pack ↔
      ∃ front report back, known = front ++ (pack, report) :: back ∧ name ∈ report.pipelines ∧
        ∀ entry ∈ back, name ∉ entry.2.pipelines := by
  unfold lastLister
  constructor
  · intro h
    obtain ⟨⟨_, report⟩, hfind, rfl⟩ := Option.map_eq_some_iff.1 h
    obtain ⟨hlisted, later, earlier, hsplit, hlater⟩ := List.find?_eq_some_iff_append.1 hfind
    refine ⟨earlier.reverse, report, later.reverse, ?_, by simpa using hlisted, ?_⟩
    · rw [← List.reverse_reverse known, hsplit]
      simp
    · intro entry hentry
      simpa using hlater entry (List.mem_reverse.1 hentry)
  · rintro ⟨front, report, back, rfl, hlisted, hback⟩
    refine Option.map_eq_some_iff.2 ⟨(pack, report), List.find?_eq_some_iff_append.2
      ⟨by simpa using hlisted, back.reverse, front.reverse, by simp, fun entry hentry => ?_⟩, rfl⟩
    simpa using hback entry (List.mem_reverse.1 hentry)

namespace Engine

/-- The pack of every pipeline in use is listed, and declares a pipeline of this name. -/
def PacksListed (e : Engine τ η) : Prop :=
  ∀ name p, e.catalog.get? name = some p →
    p.pack ∈ e.shelf.list ∧ ∃ spec, p.pack.pipelines.get? name = some spec

variable {tools : Toolchain} {e e' : Engine τ η} {pack : Pack} {report : LoadReport}
  {known : List (Pack × LoadReport)}

/-! ### One pack -/

/-- Some pipelines of a pack are registered; nothing happens to the shelf. -/
theorem kept_foldl (tools : Toolchain) (pack : Pack) (entries : List (String × PipelineSpec)) :
    ∀ (e : Engine τ η) (r : LoadReport), e.catalog.Managed →
      (entries.foldl (loadPipeline tools pack) (e, r)).1.catalog.Managed ∧
        (entries.foldl (loadPipeline tools pack) (e, r)).1.shelf = e.shelf := by
  induction entries with
  | nil => exact fun _ _ h => ⟨h, rfl⟩
  | cons entry entries ih =>
      intro e r h
      rw [List.foldl_cons]
      rcases loadPipeline_cases tools pack e r entry with ⟨compiler, heq⟩ | ⟨compiler, p, -, heq⟩
      · rw [heq]
        exact ih _ _ h
      · rw [heq]
        exact ih _ _ (h.register p)

/-- An accepted pack is put on the shelf. -/
theorem kept_of_loadPack (h : e.catalog.Managed)
    (hload : e.loadPack tools pack = (.ok report, e')) :
    e'.catalog.Managed ∧ e'.shelf = e.shelf.register pack := by
  unfold loadPack at hload
  split at hload
  · cases hload
  · cases hload
    exact kept_foldl tools pack _ { e with shelf := e.shelf.register pack } _ h

/-- The shelf and the catalog hold what some accepted packs say. -/
structure Stems (e : Engine τ η) (known : List (Pack × LoadReport)) : Prop where
  /-- The catalog is in order. -/
  managed : e.catalog.Managed
  /-- The shelf has the packs. -/
  stocked : e.shelf.Stocked (known.map Prod.fst)
  /-- Each pipeline in use belongs to the last pack that lists its name. -/
  pack_eq : ∀ name, (e.catalog.get? name).map Pipeline.pack = lastLister known name
  /-- What a report lists is declared by the pack. -/
  declared : ∀ entry ∈ known, ∀ name ∈ entry.2.pipelines,
    ∃ spec, entry.1.pipelines.get? name = some spec

/-- An engine with nothing in it. -/
theorem stems_of_blank (hblank : e.catalog.Blank) (hmanaged : e.catalog.Managed)
    (hshelf : e.shelf = Shelf.empty) : e.Stems [] := by
  refine ⟨hmanaged, hshelf ▸ Shelf.stocked_empty, fun name => ?_, nofun⟩
  rw [hblank.get?_eq]
  rfl

namespace Stems

/-- **One more accepted pack.** -/
theorem loadPack (h : e.Stems known) (hload : e.loadPack tools pack = (.ok report, e')) :
    e'.Stems (known ++ [(pack, report)]) := by
  have hindexed := h.managed.toIndexed
  obtain ⟨hmanaged, hshelf⟩ := kept_of_loadPack h.managed hload
  refine ⟨hmanaged, ?_, fun name => ?_, fun entry hentry name hname => ?_⟩
  · rw [hshelf, List.map_append]
    exact h.stocked.register pack
  · rw [lastLister_concat]
    by_cases hlisted : name ∈ report.pipelines
    · obtain ⟨spec, p, -, hget, -, hpack, -⟩ := get?_of_loadPack hindexed hload hlisted
      rw [if_pos hlisted, hget, Option.map_some, hpack]
    · rw [if_neg hlisted, (loaded_of_loadPack hindexed hload).others name hlisted, h.pack_eq]
  · rcases List.mem_append.1 hentry with hold | hnew
    · exact h.declared entry hold name hname
    · cases List.mem_singleton.1 hnew
      obtain ⟨spec, p, hspec, -⟩ := get?_of_loadPack hindexed hload hname
      exact ⟨spec, hspec⟩

/-- Several packs, one after the other. -/
theorem taken (h : e.Stems known) (tools : Toolchain) (packs : List Pack) :
    (e.taken tools packs).engine.Stems (known ++ e.accepted tools packs) := by
  induction packs using List.reverseRecOn with
  | nil => rwa [accepted, List.append_nil]
  | append_singleton packs pack ih =>
      rcases taken_concat_cases tools e packs pack with
        ⟨-, haccepted, heq⟩ | ⟨-, report, engine, hload, haccepted, heq⟩
      · rw [haccepted, heq]
        exact ih
      · rw [haccepted, heq, ← List.append_assoc]
        exact ih.loadPack hload

/-- Overriding afterwards changes neither the shelf nor the pipelines. -/
theorem loadPacks (h : e.Stems known) (tools : Toolchain) (packs : List Pack) :
    (e.loadPacks tools packs).2.Stems (known ++ e.accepted tools packs) := by
  have htaken := h.taken tools packs
  have hkept : (e.loadPacks tools packs).2.catalog.Managed ∧
      (e.loadPacks tools packs).2.shelf = (e.taken tools packs).engine.shelf := by
    rw [loadPacks_eq_finished]
    unfold Progress.finished
    split
    · refine ⟨?_, rfl⟩
      exact overrideMain_rel (fun c _ => c.Managed)
        (fun _ _ name hc => hc.afterCall (.setOverride name name))
        (fun _ _ hc => hc.afterCall (.setEnabled true)) _ (e.taken tools packs).engine.catalog
        htaken.managed _ _
    · exact ⟨htaken.managed, rfl⟩
  refine ⟨hkept.1, hkept.2 ▸ htaken.stocked, fun name => ?_, htaken.declared⟩
  rw [get?_loadPacks, htaken.pack_eq]

/-- A template changes the phase of a pipeline, and not where it comes from. -/
theorem notice (h : e.Stems known) (answer : BuildRequest τ → Except Cause η) (called : String)
    (template : τ) :
    Stems { e with catalog := e.catalog.notice answer called template } known := by
  refine ⟨h.managed.afterCall (.activate answer called template), h.stocked, fun name => ?_,
    h.declared⟩
  have hget : (e.catalog.notice answer called template).get? name =
      (e.catalog.get? name).map fun p => p.afterCall (.activate answer called template) :=
    Catalog.get?_activate h.managed answer called template name
  rw [hget, Option.map_map, ← h.pack_eq]
  exact congrArg (Option.map · (e.catalog.get? name))
    (funext fun p => p.pack_afterCall (.activate answer called template))

end Stems

end Engine

/-! ### Whole histories -/

namespace EngineRecord

/-- **One more step.** -/
theorem stems_next {r : EngineRecord τ η} (h : r.engine.Stems r.accepted)
    (step : EngineStep τ η) : (r.next step).engine.Stems (r.next step).accepted := by
  cases step with
  | loadPack tools pack =>
      have htaken := h.taken tools [pack]
      have hsame : (r.engine.taken tools [pack]).engine = (r.engine.loadPack tools pack).2 :=
        Engine.engine_loadNext { engine := r.engine } pack
      rwa [hsame] at htaken
  | loadPacks tools packs => exact h.loadPacks tools packs
  | reload tools packs =>
      have hclear : r.engine.clear.Stems [] :=
        Engine.stems_of_blank (Engine.blank_clear r.engine) h.managed.clear rfl
      exact hclear.loadPacks tools packs
  | notice answer name template => exact h.notice answer name template

/-- **The two stores hold what the accepted packs say,** after every history of a new engine. -/
theorem stems_after {settings : Settings} {files files' : FileTree} {e : Engine τ η}
    (hstart : Engine.start settings files = (.ok e, files')) (steps : List (EngineStep τ η)) :
    (after e steps).engine.Stems (after e steps).accepted := by
  have hnew : e.Stems [] := by
    unfold Engine.start at hstart
    split at hstart
    · cases hstart
    · cases hstart
      exact Engine.stems_of_blank Catalog.blank_empty .empty rfl
  induction steps using List.reverseRecOn with
  | nil => exact hnew
  | append_singleton steps step ih =>
      rw [after, List.foldl_concat]
      exact stems_next ih step

/-- **Where the pipelines in use come from,** after every history of a new engine that takes packs,
starts over and is told of templates.

* A pipeline in use is declared by its pack.  The pack was accepted since the engine started over,
  and is the last accepted one that registered a pipeline of this name.  It is listed, unless a pack
  of the same name that was accepted later is listed in its place.
* What the last such pack registered is in use.
* The listed packs are the latest ones of their names.
* Only pipelines in use override the host. -/
theorem provenance {settings : Settings} {files files' : FileTree} {e : Engine τ η}
    (hstart : Engine.start settings files = (.ok e, files')) (steps : List (EngineStep τ η)) :
    let r := after e steps
    (∀ name p, r.engine.catalog.get? name = some p →
      (∃ spec, p.pack.pipelines.get? name = some spec) ∧
      ∃ front report back, r.accepted = front ++ (p.pack, report) :: back ∧
        name ∈ report.pipelines ∧ (∀ entry ∈ back, name ∉ entry.2.pipelines) ∧
        (p.pack ∈ r.engine.shelf.list ∨
          ∃ newer ∈ back, newer.1.name = p.pack.name ∧ newer.1 ∈ r.engine.shelf.list)) ∧
    (∀ front pack report back name, r.accepted = front ++ (pack, report) :: back →
      name ∈ report.pipelines → (∀ entry ∈ back, name ∉ entry.2.pipelines) →
      ∃ p, r.engine.catalog.get? name = some p ∧ p.pack = pack) ∧
    (∀ pack, pack ∈ r.engine.shelf.list ↔
      latestNamed (r.accepted.map Prod.fst) pack.name = some pack) ∧
    ∀ host handle, r.engine.catalog.override? host = some handle →
      ∃ name p, r.engine.catalog.get? name = some p ∧ p.handle? = some handle := by
  intro r
  have hstems : r.engine.Stems r.accepted := stems_after hstart steps
  refine ⟨fun name p hget => ?_, fun front pack report back name hsplit hlisted hlast => ?_,
    fun pack => hstems.stocked.mem_list_iff, fun host handle hoverride => ?_⟩
  · have hlister : lastLister r.accepted name = some p.pack := by
      rw [← hstems.pack_eq, hget]
      rfl
    obtain ⟨front, report, back, hsplit, hlisted, hlast⟩ := lastLister_eq_some_iff.1 hlister
    have hmem : (p.pack, report) ∈ r.accepted :=
      hsplit ▸ List.mem_append_right _ List.mem_cons_self
    refine ⟨hstems.declared _ hmem name hlisted, front, report, back, hsplit, hlisted, hlast, ?_⟩
    -- The latest pack of this name is the pack itself or one behind it.
    have hlatest : latestNamed (r.accepted.map Prod.fst) p.pack.name =
        (latestNamed (back.map Prod.fst) p.pack.name).or (some p.pack) := by
      have hitself : latestNamed [p.pack] p.pack.name = some p.pack := by simp [latestNamed]
      rw [hsplit, List.map_append, List.map_cons, latestNamed_append, ← List.singleton_append,
        latestNamed_append, hitself]
      cases latestNamed (back.map Prod.fst) p.pack.name <;> rfl
    cases hnewer : latestNamed (back.map Prod.fst) p.pack.name with
    | none =>
        rw [hnewer] at hlatest
        exact .inl (hstems.stocked.mem_list_iff.2 hlatest)
    | some other =>
        rw [hnewer] at hlatest
        obtain ⟨newer, hnewermem, rfl⟩ := List.mem_map.1 (mem_of_latestNamed hnewer)
        have hname := name_of_latestNamed hnewer
        exact .inr ⟨newer, hnewermem, hname, hstems.stocked.mem_list_iff.2 (hname ▸ hlatest)⟩
  · have hlister := lastLister_eq_some_iff.2 ⟨front, report, back, hsplit, hlisted, hlast⟩
    rw [← hstems.pack_eq] at hlister
    exact Option.map_eq_some_iff.1 hlister
  · unfold Catalog.override? at hoverride
    split at hoverride
    · obtain ⟨p, hp, hhandle⟩ := Option.bind_eq_some_iff.1 hoverride
      obtain ⟨name, -, hget⟩ := Option.bind_eq_some_iff.1 hp
      exact ⟨name, p, hget, hhandle⟩
    · cases hoverride

/-- A version of a pack whose one pipeline has no fragment shader, so it registers nothing. -/
def unfinished : Pack :=
  (Pack.named "A" "2.0").withPipeline "terrain" { vertex := some "a.vsh" } |>.withSource "a.vsh" ""

/-- A pack is taken, the host builds its pipeline, and another version replaces the pack. -/
def updating : List (EngineStep Unit Nat) :=
  [.loadPacks Engine.plain [Engine.single "A" "water" .main],
    .notice (fun _ => .ok 7) "water" (), .loadPack Engine.plain unfinished]

/-- What this makes of a new engine. -/
def updated : EngineRecord Unit Nat := after (Engine.inDirectory "cache") updating

theorem start_updated :
    Engine.start (τ := Unit) (η := Nat) { cacheDir := "cache" } FileTree.empty =
      (.ok (Engine.inDirectory "cache"), (Engine.inDirectory "cache").files) :=
  Engine.start_inDirectory (by decide +kernel)

/-- Only the later version is listed. -/
theorem mem_list_updated {pack : Pack} : pack ∈ updated.engine.shelf.list ↔ pack = unfinished := by
  have hstocked : updated.engine.shelf.Stocked (updated.accepted.map Prod.fst) :=
    (stems_after start_updated updating).stocked
  have hpasses : (Engine.single "A" "water" .main).passes = true ∧ unfinished.passes = true := by
    decide +kernel
  have hpacks : updated.accepted.map Prod.fst = [Engine.single "A" "water" .main, unfinished] := by
    rw [updated, map_fst_after]
    simp [updating, EngineStep.kept, hpasses.1, hpasses.2]
  rw [hstocked.mem_list_iff, hpacks, ← List.singleton_append, latestNamed_concat]
  constructor
  · intro h
    split at h
    · exact (Option.some.inj h).symm
    · next hother =>
        have hname : (Engine.single "A" "water" .main).name = unfinished.name := rfl
        have hfirst := mem_of_latestNamed h
        rw [List.mem_singleton.1 hfirst] at hother
        exact absurd hname hother
  · rintro rfl
    rw [if_pos rfl]

/-- The pipeline of the first version is in use, with the handle that the host built. -/
theorem override?_updated :
    (updated.engine.catalog.get? "water").map
        (fun p => ((p.pack.pipelines.get? "water").isSome, p.handle?)) = some (true, some 7) ∧
      updated.engine.catalog.override? "water" = some 7 := by
  decide +kernel

/-- The pack in use is not listed, and what is listed does not declare the pipeline. -/
theorem unlisted_updated :
    ∃ p, updated.engine.catalog.get? "water" = some p ∧ p.pack ∉ updated.engine.shelf.list ∧
      (∀ pack ∈ updated.engine.shelf.list, pack.pipelines.get? "water" = none) ∧
      p.handle? = some 7 := by
  obtain ⟨p, hget, hp⟩ := Option.map_eq_some_iff.1 override?_updated.1
  obtain ⟨hdeclared, hhandle⟩ := Prod.mk.inj hp
  have hnone : unfinished.pipelines.get? "water" = none := by decide +kernel
  refine ⟨p, hget, fun hlisted => ?_, fun pack hlisted => ?_, hhandle⟩
  · rw [mem_list_updated.1 hlisted, hnone] at hdeclared
    cases hdeclared
  · rw [mem_list_updated.1 hlisted]
    exact hnone

/-- **A version of a pack that was replaced may go on overriding the host:** the later version
registered no pipeline in the place of its own. -/
theorem replaced_version_overrides :
    ¬ updated.engine.PacksListed ∧
      ∃ p, updated.engine.catalog.get? "water" = some p ∧ p.pack ∉ updated.engine.shelf.list ∧
        (∀ pack ∈ updated.engine.shelf.list, pack.pipelines.get? "water" = none) ∧
        p.handle? = some 7 ∧ updated.engine.catalog.override? "water" = some 7 := by
  obtain ⟨p, hget, hgone, hnone, hhandle⟩ := unlisted_updated
  exact ⟨fun h => hgone (h "water" p hget).1, p, hget, hgone, hnone, hhandle,
    override?_updated.2⟩

/-- There, the later version is behind the pack in use, and listed in its place. -/
theorem provenance_updated :
    Engine.start (τ := Unit) (η := Nat) { cacheDir := "cache" } FileTree.empty =
        (.ok (Engine.inDirectory "cache"), (Engine.inDirectory "cache").files) ∧
      ∃ p front report back, updated.engine.catalog.get? "water" = some p ∧
        updated.accepted = front ++ (p.pack, report) :: back ∧ "water" ∈ report.pipelines ∧
        (∀ entry ∈ back, "water" ∉ entry.2.pipelines) ∧ p.pack.name = unfinished.name ∧
        unfinished ∈ back.map Prod.fst ∧
        ∃ name q, updated.engine.catalog.get? name = some q ∧ q.handle? = some 7 := by
  obtain ⟨p, hget, hgone, -⟩ := unlisted_updated
  obtain ⟨hinuse, -, -, hoverrides⟩ := provenance start_updated updating
  obtain ⟨-, front, report, back, hsplit, hlisted, hlast, hplace⟩ := hinuse "water" p hget
  obtain ⟨newer, hmem, hname, hnewer⟩ := hplace.resolve_left hgone
  have hlater : newer.1 = unfinished := mem_list_updated.1 hnewer
  exact ⟨start_updated, p, front, report, back, hget, hsplit, hlisted, hlast,
    hlater ▸ hname.symm, hlater ▸ List.mem_map_of_mem hmem,
    hoverrides "water" 7 override?_updated.2⟩

end EngineRecord

end Shaderworks
