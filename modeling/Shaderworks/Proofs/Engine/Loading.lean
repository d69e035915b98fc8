/-
**Taking a pack.**

An accepted pack registers those of its pipelines that compile, one after the other.  It touches
neither the overrides nor the pipelines of other names, and its report lists exactly the names that
it registered.

Main definitions:

* `Engine.Loaded` — what taking a pack, or a part of it, has changed;
* `Engine.taken` — an engine after several packs, before their pipelines override anything.

Main results:

* `Engine.Loaded.loadPipeline` — one more pipeline of the pack;
* `Engine.loaded_of_loadPack` — a whole pack;
* `Engine.taken_keeps` — several packs;
* `Engine.overrideMain_rel` — what is kept when their pipelines override the host.
-/

import Shaderworks.Engine
import Shaderworks.Proofs.Pipeline.Indexed
import Mathlib.Data.List.Induction

set_option autoImplicit false

namespace Shaderworks.Engine

variable {τ η : Type} {tools : Toolchain} {pack : Pack}

/-! ### One pipeline -/

/-- A compiled pipeline has the name, the pack and the draw state it was declared with; it waits. -/
theorem fields_of_compilePipeline {c c' : Compiler} {name : String} {spec : PipelineSpec}
    {p : Pipeline η} (h : compilePipeline tools c pack name spec = (.ok p, c')) :
    p.name = name ∧ p.pack = pack ∧ p.drawState = .ofSpec spec ∧ p.phase = .waiting := by
  unfold compilePipeline at h
  repeat' split at h
  all_goals cases h
  exact ⟨rfl, rfl, rfl, rfl⟩

/-- A pipeline of a pack either fails and only costs the compiler some work, or is registered. -/
theorem loadPipeline_cases (tools : Toolchain) (pack : Pack) (e : Engine τ η) (r : LoadReport)
    (entry : String × PipelineSpec) :
    (∃ compiler, loadPipeline tools pack (e, r) entry =
        ({ e with compiler }, { r with found := r.found + 1, failed := r.failed + 1 })) ∨
      ∃ compiler, ∃ p : Pipeline η, p.name = entry.1 ∧
        loadPipeline tools pack (e, r) entry =
          ({ e with compiler, catalog := (e.catalog.register p).2 },
            { r with
              found := r.found + 1
              compiled := r.compiled + 1
              registered := r.registered + 1
              pipelines := r.pipelines ++ [entry.1] }) := by
  unfold loadPipeline
  dsimp only
  rcases hcompile : compilePipeline (η := η) tools e.compiler pack entry.1 entry.2 with
    ⟨_ | p, compiler⟩
  · exact .inl ⟨compiler, rfl⟩
  · exact .inr ⟨compiler, p, (fields_of_compilePipeline hcompile).1, rfl⟩

/-! ### One pack -/

/-- What has become of an engine when a pack, or a part of it, was taken. -/
structure Loaded (before : Engine τ η) (e : Engine τ η) (r : LoadReport) : Prop where
  /-- The catalog is indexed. -/
  indexed : e.catalog.Indexed
  /-- The settings stay. -/
  settings : e.settings = before.settings
  /-- The overrides stay. -/
  overrides : e.catalog.overrides = before.catalog.overrides
  /-- Overriding stays enabled or disabled. -/
  enabled : e.catalog.enabled = before.catalog.enabled
  /-- The report counts the names that it lists. -/
  registered : r.registered = r.pipelines.length
  /-- The names that the report lists are in use. -/
  listed : ∀ name ∈ r.pipelines, e.catalog.contains name = true
  /-- Under any other name the same is found as before. -/
  others : ∀ name ∉ r.pipelines, e.catalog.get? name = before.catalog.get? name

namespace Loaded

variable {before e : Engine τ η} {r : LoadReport}

/-- Names in use stay in use. -/
theorem contains (h : Loaded before e r) (hbefore : before.catalog.Indexed) {name : String}
    (hname : before.catalog.contains name = true) : e.catalog.contains name = true := by
  by_cases hlisted : name ∈ r.pipelines
  · exact h.listed name hlisted
  · rw [h.indexed.contains_iff, h.others name hlisted]
    exact hbefore.contains_iff.1 hname

/-- **One more pipeline of the pack.** -/
theorem loadPipeline (h : Loaded before e r) (entry : String × PipelineSpec) :
    Loaded before (Engine.loadPipeline tools pack (e, r) entry).1
      (Engine.loadPipeline tools pack (e, r) entry).2 := by
  rcases loadPipeline_cases tools pack e r entry with
    ⟨compiler, heq⟩ | ⟨compiler, p, hp, heq⟩
  · rw [heq]
    exact ⟨h.indexed, h.settings, h.overrides, h.enabled, h.registered, h.listed, h.others⟩
  · obtain ⟨-, -, hoverrides, henabled⟩ := e.catalog.register_fields p
    -- The index of the name changes and no other, whatever was registered under it before.
    have hget : ∀ name, (e.catalog.register p).2.get? name =
        if name = entry.1 then some p else e.catalog.get? name := by
      intro name
      rw [Catalog.get?_register p h.indexed, hp]
    have hindexed := h.indexed.register p
    rw [heq]
    refine ⟨hindexed, h.settings, hoverrides.trans h.overrides, henabled.trans h.enabled, ?_, ?_,
      ?_⟩
    · dsimp only
      rw [h.registered, List.length_append, List.length_singleton]
    · intro name hname
      refine hindexed.contains_iff.2 ?_
      rw [hget]
      by_cases hentry : name = entry.1
      · exact ⟨p, if_pos hentry⟩
      · rw [if_neg hentry]
        rcases List.mem_append.1 hname with hold | hnew
        · exact h.indexed.contains_iff.1 (h.listed name hold)
        · exact absurd (List.mem_singleton.1 hnew) hentry
    · intro name hname
      rw [List.mem_append, List.mem_singleton, not_or] at hname
      dsimp only
      rw [hget, if_neg hname.2, h.others name hname.1]

end Loaded

/-- What a fold over the pipelines of a pack has changed. -/
theorem loaded_foldl {before : Engine τ η} (entries : List (String × PipelineSpec)) :
    ∀ {e : Engine τ η} {r : LoadReport}, Loaded before e r →
      Loaded before (entries.foldl (loadPipeline tools pack) (e, r)).1
        (entries.foldl (loadPipeline tools pack) (e, r)).2 := by
  induction entries with
  | nil => exact fun h => h
  | cons entry entries ih => exact fun h => ih (h.loadPipeline entry)

/-- **An accepted pack registers what its report lists**, and leaves the rest of the catalog. -/
theorem loaded_of_loadPack {e e' : Engine τ η} {r : LoadReport} (h : e.catalog.Indexed)
    (hload : e.loadPack tools pack = (.ok r, e')) : Loaded e e' r := by
  unfold loadPack at hload
  split at hload
  · cases hload
  · cases hload
    exact loaded_foldl _ ⟨h, rfl, rfl, rfl, rfl, fun _ hname => absurd hname List.not_mem_nil,
      fun _ _ => rfl⟩

/-! ### Several packs -/

variable (tools) in
/-- How far an engine has come when it has taken some packs. -/
def taken (e : Engine τ η) (packs : List Pack) : Progress τ η :=
  packs.foldl (loadNext tools) { engine := e }

section Taken

variable (tools) {e : Engine τ η} (packs : List Pack)

variable (e) in
theorem taken_concat :
    e.taken tools (packs ++ [pack]) = loadNext tools (e.taken tools packs) pack :=
  List.foldl_concat ..

/-- A pack is either refused and only counted, or loaded. -/
theorem loadNext_cases {p : Progress τ η} (h : p.engine.catalog.Indexed) (pack : Pack) :
    loadNext tools p pack = { p with summary := p.summary.reject } ∨
      ∃ engine r, Loaded p.engine engine r ∧
        loadNext tools p pack =
          { engine
            summary := p.summary.add r
            mainNames := p.mainNames ++ r.pipelines.filter engine.inMainPass } := by
  unfold loadNext
  rcases hload : p.engine.loadPack tools pack with ⟨_ | r, engine⟩
  · exact .inl rfl
  · exact .inr ⟨engine, r, loaded_of_loadPack h hload, rfl⟩

/-- **Taking packs keeps the index of the catalog**, the settings and the overrides. -/
theorem taken_keeps (h : e.catalog.Indexed) :
    (e.taken tools packs).engine.catalog.Indexed ∧
      (e.taken tools packs).engine.settings = e.settings ∧
      (e.taken tools packs).engine.catalog.overrides = e.catalog.overrides ∧
      (e.taken tools packs).engine.catalog.enabled = e.catalog.enabled := by
  induction packs using List.reverseRecOn with
  | nil => exact ⟨h, rfl, rfl, rfl⟩
  | append_singleton packs pack ih =>
      obtain ⟨hindexed, hsettings, hoverrides, henabled⟩ := ih
      rw [taken_concat]
      rcases loadNext_cases tools hindexed pack with heq | ⟨engine, r, hloaded, heq⟩
      · rw [heq]
        exact ⟨hindexed, hsettings, hoverrides, henabled⟩
      · rw [heq]
        exact ⟨hloaded.indexed, hloaded.settings.trans hsettings,
          hloaded.overrides.trans hoverrides, hloaded.enabled.trans henabled⟩

end Taken

/-! ### Overriding afterwards -/

/-- What holds side by side of two catalogs, and is kept by overriding by name and by enabling, is
kept when several pipelines override the host. -/
theorem overrideMain_rel (R : Catalog τ η → Catalog τ η → Prop)
    (hset : ∀ c c' name, R c c' → R (c.setOverride name name).2 (c'.setOverride name name).2)
    (henable : ∀ c c', R c c' → R (c.setEnabled true) (c'.setEnabled true))
    (c c' : Catalog τ η) (h : R c c') (names : List String) (registered : Nat) :
    R (overrideMain c names registered) (overrideMain c' names registered) := by
  have hnames : R (names.foldl (fun c name => (c.setOverride name name).2) c)
      (names.foldl (fun c name => (c.setOverride name name).2) c') := by
    induction names generalizing c c' with
    | nil => exact h
    | cons name names ih => exact ih _ _ (hset c c' name h)
  unfold overrideMain
  dsimp only
  split
  · exact henable _ _ hnames
  · exact hnames

end Shaderworks.Engine
