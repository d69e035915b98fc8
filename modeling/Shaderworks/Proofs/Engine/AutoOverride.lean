/-
**What overrides the host after several packs were taken.**

The names to override are collected pack by pack: a name counts if its pipeline is in the main pass
when its pack was taken.  A later pack may replace that pipeline by one of the post-processing pass,
and the name stays collected.  So a host pipeline is overridden exactly if the pipeline of its name
was in the main pass after some of the packs, which need not be so after all of them.

Main results:

* `Engine.blank_start`, `Engine.blank_clear` — new engines and cleared ones have a blank catalog;
* `Engine.mem_mainNames_taken` — which names are collected;
* `Engine.overrides_loadPacks` — which host pipelines are overridden, when these are just those of
  the main pass in the end, and when overriding is enabled;
* `Engine.overrides_after_replacement` — a pipeline of the post-processing pass that overrides the
  host.
-/

import Shaderworks.Proofs.Engine.Loading

set_option autoImplicit false

namespace Shaderworks

namespace Catalog

variable {τ η : Type}

/-! ### Overriding by name -/

/-- Pipelines bound in the stead of the host pipelines of their names. -/
def overriding (c : Catalog τ η) (names : List String) : Catalog τ η :=
  names.foldl (fun c name => (c.setOverride name name).2) c

/-- Overriding by name touches nothing but the overrides, and adds those of the names. -/
theorem overriding_eq (names : List String) :
    ∀ c : Catalog τ η, (∀ name ∈ names, c.contains name = true) →
      ∃ overrides, c.overriding names = { c with overrides } ∧
        ∀ host, overrides.get? host =
          if host ∈ names then some host else c.overrides.get? host := by
  induction names with
  | nil => exact fun c _ => ⟨c.overrides, rfl, fun host => by simp⟩
  | cons name names ih =>
      intro c h
      have hstep : (c.setOverride name name).2 =
          { c with overrides := c.overrides.put name name } := by
        rw [setOverride, if_pos (h name List.mem_cons_self)]
      obtain ⟨overrides, heq, hget⟩ := ih { c with overrides := c.overrides.put name name }
        fun other hother => h other (List.mem_cons_of_mem _ hother)
      refine ⟨overrides, ?_, fun host => ?_⟩
      · rw [overriding, List.foldl_cons, hstep]
        exact heq
      · rw [hget]
        by_cases hmem : host ∈ names
        · rw [if_pos hmem, if_pos (List.mem_cons_of_mem _ hmem)]
        · by_cases hname : host = name
          · rw [if_neg hmem, if_pos (hname ▸ List.mem_cons_self), Table.get?_put, if_pos hname,
              hname]
          · rw [if_neg hmem, Table.get?_put, if_neg hname, if_neg (by simp [hmem, hname])]

end Catalog

namespace Engine

variable {τ η : Type} {tools : Toolchain} {e : Engine τ η} {name : String}

/-! ### Engines without pipelines -/

/-- A new engine has a blank catalog. -/
theorem blank_start {settings : Settings} {files files' : FileTree}
    (h : start settings files = (.ok e, files')) : e.catalog.Blank := by
  unfold start at h
  split at h
  · cases h
  · cases h
    exact Catalog.blank_empty

/-- So has an engine that was just cleared. -/
theorem blank_clear (e : Engine τ η) : e.clear.catalog.Blank := Catalog.blank_clear e.catalog

/-! ### The names that are collected -/

theorem inMainPass_congr {e e' : Engine τ η} (h : e'.catalog.get? name = e.catalog.get? name) :
    e'.inMainPass name = e.inMainPass name := by
  rw [inMainPass, inMainPass, h]

theorem inMainPass_of_blank (h : e.catalog.Blank) : e.inMainPass name = false := by
  rw [inMainPass, h.get?_eq]

/-- **A name is collected exactly if its pipeline was in the main pass after some of the packs.** -/
theorem mem_mainNames_taken (h : e.catalog.Blank) (packs : List Pack) :
    name ∈ (e.taken tools packs).mainNames ↔
      ∃ front, front <+: packs ∧ (e.taken tools front).engine.inMainPass name = true := by
  induction packs using List.reverseRecOn with
  | nil =>
      refine ⟨fun hmem => absurd hmem List.not_mem_nil, ?_⟩
      rintro ⟨front, hfront, hmain⟩
      rw [List.prefix_nil.1 hfront] at hmain
      exact absurd (hmain.symm.trans (inMainPass_of_blank h)) (by decide)
  | append_singleton packs pack ih =>
      -- A name outside the report is in the main pass after the pack exactly if it was before.
      have hstep : name ∈ (e.taken tools (packs ++ [pack])).mainNames ↔
          (e.taken tools (packs ++ [pack])).engine.inMainPass name = true ∨
            name ∈ (e.taken tools packs).mainNames := by
        have hindexed := (taken_keeps tools packs h.indexed).1
        have hbefore : (e.taken tools packs).engine.inMainPass name = true →
            name ∈ (e.taken tools packs).mainNames := fun hmain =>
          ih.2 ⟨packs, List.prefix_refl _, hmain⟩
        rw [taken_concat]
        rcases loadNext_cases tools hindexed pack with heq | ⟨engine, r, hloaded, heq⟩
        · rw [heq]
          exact ⟨.inr, fun hor => hor.elim hbefore id⟩
        · rw [heq]
          dsimp only
          rw [List.mem_append, List.mem_filter]
          constructor
          · rintro (hold | ⟨-, hmain⟩)
            · exact .inr hold
            · exact .inl hmain
          · rintro (hmain | hold)
            · by_cases hlisted : name ∈ r.pipelines
              · exact .inr ⟨hlisted, hmain⟩
              · rw [inMainPass_congr (hloaded.others name hlisted)] at hmain
                exact .inl (hbefore hmain)
            · exact .inl hold
      rw [hstep, ih]
      constructor
      · rintro (hmain | ⟨front, hfront, hmain⟩)
        · exact ⟨_, List.prefix_refl _, hmain⟩
        · exact ⟨front, hfront.trans (List.prefix_append ..), hmain⟩
      · rintro ⟨front, hfront, hmain⟩
        rcases List.prefix_concat_iff.1 hfront with rfl | hfront
        · exact .inl hmain
        · exact .inr ⟨front, hfront, hmain⟩

/-- Whatever is collected stays in use. -/
theorem contains_of_mem_mainNames (h : e.catalog.Indexed) (packs : List Pack) :
    ∀ name ∈ (e.taken tools packs).mainNames,
      (e.taken tools packs).engine.catalog.contains name = true := by
  induction packs using List.reverseRecOn with
  | nil => exact fun name hmem => absurd hmem List.not_mem_nil
  | append_singleton packs pack ih =>
      have hindexed := (taken_keeps tools packs h).1
      intro name hmem
      rw [taken_concat] at hmem ⊢
      rcases loadNext_cases tools hindexed pack with heq | ⟨engine, r, hloaded, heq⟩
      · rw [heq] at hmem ⊢
        exact ih name hmem
      · rw [heq] at hmem ⊢
        rcases List.mem_append.1 hmem with hold | hnew
        · exact hloaded.contains hindexed (ih name hold)
        · exact hloaded.listed name (List.mem_of_mem_filter hnew)

/-- Something is counted as registered exactly if some name is in use. -/
theorem registered_taken_pos (h : e.catalog.Blank) (packs : List Pack) :
    0 < (e.taken tools packs).summary.registered ↔
      ∃ name, (e.taken tools packs).engine.catalog.contains name = true := by
  induction packs using List.reverseRecOn with
  | nil =>
      refine ⟨fun hpos => absurd hpos (Nat.lt_irrefl 0), ?_⟩
      rintro ⟨name, hname⟩
      obtain ⟨p, hp⟩ := h.indexed.contains_iff.1 hname
      exact absurd ((h.get?_eq name).symm.trans hp) (by simp)
  | append_singleton packs pack ih =>
      have hindexed := (taken_keeps tools packs h.indexed).1
      rw [taken_concat]
      rcases loadNext_cases tools hindexed pack with heq | ⟨engine, r, hloaded, heq⟩
      · rw [heq]
        exact ih
      · rw [heq]
        have hcount : ((e.taken tools packs).summary.add r).registered =
            (e.taken tools packs).summary.registered + r.pipelines.length := by
          rw [← hloaded.registered]
          rfl
        dsimp only
        rw [hcount]
        -- A name in use is listed by the new report or was in use before.
        constructor
        · intro hpos
          rcases Nat.eq_zero_or_pos r.pipelines.length with hnone | hsome
          · rw [hnone, Nat.add_zero] at hpos
            obtain ⟨name, hname⟩ := ih.1 hpos
            exact ⟨name, hloaded.contains hindexed hname⟩
          · obtain ⟨name, hname⟩ := List.exists_mem_of_length_pos hsome
            exact ⟨name, hloaded.listed name hname⟩
        · rintro ⟨name, hname⟩
          by_cases hlisted : name ∈ r.pipelines
          · exact Nat.add_pos_right _ (List.length_pos_of_mem hlisted)
          · refine Nat.add_pos_left (ih.2 ⟨name, ?_⟩) _
            rw [hindexed.contains_iff, ← hloaded.others name hlisted]
            exact hloaded.indexed.contains_iff.1 hname

/-! ### The overrides -/

/-- Taking packs under automatic overriding, in terms of what was collected. -/
theorem loadPacks_eq (tools : Toolchain) (hauto : e.settings.autoOverride = true)
    (hblank : e.catalog.Blank) (packs : List Pack) :
    ∃ overrides, (∀ host, overrides.get? host =
        if host ∈ (e.taken tools packs).mainNames then some host else none) ∧
      e.loadPacks tools packs =
        ((e.taken tools packs).summary,
          { (e.taken tools packs).engine with
            catalog :=
              { (e.taken tools packs).engine.catalog with
                overrides
                enabled := decide (0 < (e.taken tools packs).summary.registered) } }) := by
  obtain ⟨-, hsettings, hoverrides, henabled⟩ :=
    taken_keeps tools packs hblank.indexed
  obtain ⟨overrides, heq, hget⟩ :=
    Catalog.overriding_eq (e.taken tools packs).mainNames (e.taken tools packs).engine.catalog
      (contains_of_mem_mainNames hblank.indexed packs)
  refine ⟨overrides, fun host => ?_, ?_⟩
  · rw [hget, hoverrides, hblank.overrides, Table.get?_empty]
  · have hload : e.loadPacks tools packs =
        ((e.taken tools packs).summary,
          { (e.taken tools packs).engine with
            catalog := overrideMain (e.taken tools packs).engine.catalog
              (e.taken tools packs).mainNames (e.taken tools packs).summary.registered }) := by
      unfold loadPacks
      exact if_pos (hsettings ▸ hauto)
    have hmain : overrideMain (e.taken tools packs).engine.catalog
          (e.taken tools packs).mainNames (e.taken tools packs).summary.registered =
        { (e.taken tools packs).engine.catalog with
          overrides
          enabled := decide (0 < (e.taken tools packs).summary.registered) } := by
      unfold overrideMain
      rw [← Catalog.overriding, heq]
      split
      · next hpos => simp [Catalog.setEnabled, hpos]
      · next hpos => simp [hpos, henabled, hblank.enabled]
    rw [hload, hmain]

theorem inMainPass_loadPacks (tools : Toolchain) (hauto : e.settings.autoOverride = true)
    (hblank : e.catalog.Blank) (packs : List Pack) (name : String) :
    (e.loadPacks tools packs).2.inMainPass name =
      (e.taken tools packs).engine.inMainPass name := by
  obtain ⟨overrides, -, heq⟩ := loadPacks_eq tools hauto hblank packs
  rw [heq]
  rfl

/-- The overrides are those of the main pass: each host pipeline is overridden by the pipeline of
its name if that is in the main pass, and by no other. -/
def OverridesMainPass (e : Engine τ η) : Prop :=
  ∀ host custom, e.catalog.overrides.get? host = some custom ↔
    custom = host ∧ e.inMainPass host = true

variable (tools e) in
/-- No pack takes out of the main pass what an earlier one put there. -/
def MainPassGrows (packs : List Pack) : Prop :=
  ∀ front, front <+: packs → ∀ name, (e.loadPacks tools front).2.inMainPass name = true →
    (e.loadPacks tools packs).2.inMainPass name = true

/-- **Which host pipelines are overridden after several packs.**  Each is overridden by the pipeline
of its own name, if that was in the main pass after some of the packs.  These are the pipelines that
are in the main pass in the end exactly if no pack takes one out of it.  Overriding is enabled
exactly if a pipeline was registered. -/
theorem overrides_loadPacks (hauto : e.settings.autoOverride = true) (hblank : e.catalog.Blank)
    (packs : List Pack) :
    (∀ host custom, (e.loadPacks tools packs).2.catalog.overrides.get? host = some custom ↔
        custom = host ∧ ∃ front, front <+: packs ∧
          (e.loadPacks tools front).2.inMainPass host = true) ∧
      ((e.loadPacks tools packs).2.OverridesMainPass ↔ e.MainPassGrows tools packs) ∧
      ((e.loadPacks tools packs).2.catalog.enabled = true ↔
        0 < (e.loadPacks tools packs).1.registered) ∧
      (0 < (e.loadPacks tools packs).1.registered ↔
        ∃ name, (e.loadPacks tools packs).2.catalog.contains name = true) := by
  have hmain := inMainPass_loadPacks tools hauto hblank
  obtain ⟨overrides, hget, heq⟩ := loadPacks_eq tools hauto hblank packs
  have hoverrides : ∀ host custom,
      (e.loadPacks tools packs).2.catalog.overrides.get? host = some custom ↔
        custom = host ∧ ∃ front, front <+: packs ∧
          (e.loadPacks tools front).2.inMainPass host = true := by
    intro host custom
    simp only [hmain]
    rw [← mem_mainNames_taken hblank, heq]
    dsimp only
    rw [hget]
    by_cases hmem : host ∈ (e.taken tools packs).mainNames
    · rw [if_pos hmem, Option.some.injEq]
      exact ⟨fun h => ⟨h.symm, hmem⟩, fun h => h.1.symm⟩
    · rw [if_neg hmem]
      exact ⟨fun h => absurd h (by simp), fun h => absurd h.2 hmem⟩
  refine ⟨hoverrides, ?_, ?_, ?_⟩
  -- The last of the prefixes is the whole list, so only the others can add overrides.
  · constructor
    · intro h front hfront name hname
      exact ((h name name).1 ((hoverrides name name).2 ⟨rfl, front, hfront, hname⟩)).2
    · intro h host custom
      rw [hoverrides]
      refine and_congr_right fun _ => ⟨?_, fun hhost => ⟨packs, List.prefix_refl _, hhost⟩⟩
      rintro ⟨front, hfront, hhost⟩
      exact h front hfront host hhost
  · rw [heq]
    exact decide_eq_true_iff
  · rw [heq]
    exact registered_taken_pos hblank packs

/-- Tools that convert nothing and compile every shader to its own text. -/
def plain : Toolchain where
  convert := fun _ _ => .error ⟨"no conversion", []⟩
  compile := fun _ _ source => .ok (Bytes.ofText source)

/-- A pack with one pipeline of two empty shaders. -/
def single (name pipeline : String) (pass : Pass) : Pack :=
  (Pack.named name "1.0").withPipeline pipeline
    { vertex := some "a.vsh", fragment := some "a.fsh", pass }
    |>.withSource "a.vsh" "" |>.withSource "a.fsh" ""

/-- A new engine on a new directory. -/
def fresh : Engine Unit Unit where
  settings := {}
  compiler :=
    { cache := { files := (FileTree.empty.createDirectories "cache").2, dir := "cache" }
      maxDepth := defaultMaxDepth }

/-- A new engine takes a pack for each pass. -/
theorem overrides_loadPacks_fresh :
    let packs := [single "A" "terrain" .main, single "B" "bloom" .postProcess]
    fresh.settings.autoOverride = true ∧ fresh.catalog.Blank ∧
      (∀ host custom, (fresh.loadPacks plain packs).2.catalog.overrides.get? host = some custom ↔
          custom = host ∧ ∃ front, front <+: packs ∧
            (fresh.loadPacks plain front).2.inMainPass host = true) ∧
        ((fresh.loadPacks plain packs).2.OverridesMainPass ↔ fresh.MainPassGrows plain packs) ∧
        ((fresh.loadPacks plain packs).2.catalog.enabled = true ↔
          0 < (fresh.loadPacks plain packs).1.registered) ∧
        (0 < (fresh.loadPacks plain packs).1.registered ↔
          ∃ name, (fresh.loadPacks plain packs).2.catalog.contains name = true) :=
  ⟨rfl, Catalog.blank_empty, overrides_loadPacks rfl Catalog.blank_empty _⟩

/-- A second pack has in the post-processing pass the pipeline that the first one has in the main
pass, and the host is overridden by it. -/
theorem overrides_after_replacement :
    let packs := [single "A" "terrain" .main, single "B" "terrain" .postProcess]
    (fresh.loadPacks plain packs).2.catalog.overrides.get? "terrain" = some "terrain" ∧
      (fresh.loadPacks plain packs).2.inMainPass "terrain" = false ∧
      ¬ (fresh.loadPacks plain packs).2.OverridesMainPass := by
  intro packs
  obtain ⟨hget, hpass⟩ :
      (fresh.loadPacks plain packs).2.catalog.overrides.get? "terrain" = some "terrain" ∧
        (fresh.loadPacks plain packs).2.inMainPass "terrain" = false := by
    decide +kernel
  refine ⟨hget, hpass, fun h => ?_⟩
  have hmain := ((h "terrain" "terrain").1 hget).2
  rw [hpass] at hmain
  cases hmain

end Engine

end Shaderworks
