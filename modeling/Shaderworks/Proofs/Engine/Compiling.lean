/-
**What becomes of the pipelines of a pack.**

Whether a pipeline compiles, and to what, is decided by its pack and the host's tools alone, as long
as every entry of the cache is what the compiler would make.  The pipelines that compile are those
that declare a vertex and a fragment shader, and whose declared shaders the host accepts.

Main definitions:

* `Pack.jobs` — the shaders that an accepted pack has compiled;
* `Pack.Good` — a pipeline compiles, said without a compiler's state;
* `Pack.uncached` — what a pipeline compiles to without a cache;
* `Pack.compiled` — the pipelines of a pack that compile.

Main results:

* `Pack.uncached_eq_ok_iff` — good pipelines compile, and no others;
* `Engine.compilePipeline_sound` — a sound compiler makes of a pipeline what is made of it without
  a cache;
* `Engine.loadPack_of_ok` — **an accepted pack registers its good pipelines, and reports them.**
-/

import Shaderworks.Proofs.Bytecode.Custody
import Shaderworks.Proofs.Engine.Loading
import Shaderworks.Proofs.Pipeline.Registering

set_option autoImplicit false

namespace Shaderworks

variable {τ η : Type}

namespace Pack

/-! ### The shaders of a pack -/

/-- The job to compile a file of a pack for a stage. -/
def job (pack : Pack) (path source : String) (stage : Stage) : CompileJob :=
  { sources := pack.sources, name := path, source, stage, version := pack.version }

/-- The jobs to compile the shaders that a pipeline declares. -/
def specJobs (pack : Pack) (spec : PipelineSpec) : List CompileJob :=
  spec.shaderPaths.filterMap fun shader =>
    (pack.source? shader.2).map fun source => pack.job shader.2 source shader.1

/-- The jobs to compile all shaders that the pipelines of a pack declare.  A pack with a defect is
refused, so it has none. -/
def jobs (pack : Pack) : List CompileJob :=
  match pack.check with
  | .error _ => []
  | .ok () => pack.pipelines.values.flatMap pack.specJobs

variable {pack : Pack} {spec : PipelineSpec} {stage : Stage} {path : String}

theorem job_mem_specJobs {source : String} (hpath : spec.path? stage = some path)
    (hsource : pack.source? path = some source) :
    pack.job path source stage ∈ pack.specJobs spec :=
  List.mem_filterMap.2 ⟨(stage, path), PipelineSpec.mem_shaderPaths.2 hpath, by simp [hsource]⟩

theorem specJobs_subset_jobs (hcheck : pack.check = .ok ()) {entry : String × PipelineSpec}
    (hentry : entry ∈ pack.pipelines.entries) : pack.specJobs entry.2 ⊆ pack.jobs := by
  intro job hjob
  rw [jobs, hcheck]
  exact List.mem_flatMap.2 ⟨entry.2, List.mem_map_of_mem hentry, hjob⟩

/-! ### Good pipelines -/

/-- Whether the host accepts a file of a pack as the shader of a stage: the includes can be expanded,
and the compiler accepts the source, after conversion if it was converted. -/
def Accepts (tools : Toolchain) (maxDepth : Nat) (pack : Pack) (stage : Stage) (path : String) :
    Prop :=
  ∃ source expanded bytecode, pack.source? path = some source ∧
    Shader.expand pack.sources maxDepth source path = .ok expanded ∧
      tools.compile path stage (Compiler.finalSource tools stage expanded).1 = .ok bytecode

/-- Whether a pipeline compiles: it declares a vertex and a fragment shader, and the host accepts
every shader that it declares. -/
structure Good (tools : Toolchain) (maxDepth : Nat) (pack : Pack) (spec : PipelineSpec) : Prop where
  vertex : spec.vertex.isSome = true
  fragment : spec.fragment.isSome = true
  accepted : ∀ stage path, spec.path? stage = some path → pack.Accepts tools maxDepth stage path

variable (tools : Toolchain) (maxDepth : Nat)

/-- What a shader of a pipeline compiles to without a cache. -/
def uncachedStage (pack : Pack) (pipeline path : String) (stage : Stage) :
    Except Failure Artifact :=
  match pack.source? path with
  | none => .error (.missingStage pipeline stage)
  | some source => Compiler.uncached tools maxDepth (pack.job path source stage)

/-- What the geometry shader compiles to, if there is one. -/
def uncachedGeometry (pack : Pack) (pipeline : String) :
    Option String → Except Failure (Option Artifact)
  | none => .ok none
  | some path => (pack.uncachedStage tools maxDepth pipeline path .geometry).map some

/-- What a pipeline compiles to without a cache. -/
def uncached (pack : Pack) (name : String) (spec : PipelineSpec) :
    Except Failure (Pipeline η) :=
  match spec.vertex, spec.fragment with
  | none, _ => .error (.missingStage name .vertex)
  | some _, none => .error (.missingStage name .fragment)
  | some vertexPath, some fragmentPath =>
      match pack.uncachedStage tools maxDepth name vertexPath .vertex with
      | .error failure => .error failure
      | .ok vertex =>
          match pack.uncachedStage tools maxDepth name fragmentPath .fragment with
          | .error failure => .error failure
          | .ok fragment =>
              match pack.uncachedGeometry tools maxDepth name spec.geometry with
              | .error failure => .error failure
              | .ok geometry =>
                  .ok { name, pack, vertex, fragment, geometry, drawState := .ofSpec spec }

/-- The pipelines of a pack that compile, by ascending name. -/
def compiled (pack : Pack) : List (Pipeline η) :=
  pack.pipelines.entries.filterMap fun entry =>
    (pack.uncached tools maxDepth entry.1 entry.2).toOption

variable {tools maxDepth}

theorem uncachedStage_eq_ok_iff (name : String) :
    (∃ artifact, pack.uncachedStage tools maxDepth name path stage = .ok artifact) ↔
      pack.Accepts tools maxDepth stage path := by
  unfold uncachedStage Accepts
  cases hsource : pack.source? path with
  | none => simp
  | some source =>
      simp only [Compiler.uncached, job, Option.some.injEq, exists_and_left, exists_eq_left']
      cases hexpand : Shader.expand pack.sources maxDepth source path with
      | error fault => simp
      | ok expanded =>
          simp only [Except.ok.injEq, exists_eq_left']
          cases tools.compile path stage (Compiler.finalSource tools stage expanded).1 <;> simp

/-- **Good pipelines compile, and no others.** -/
theorem uncached_eq_ok_iff (name : String) :
    (∃ p : Pipeline η, pack.uncached tools maxDepth name spec = .ok p) ↔
      pack.Good tools maxDepth spec := by
  unfold uncached
  constructor
  · rintro ⟨p, hp⟩
    split at hp
    · cases hp
    · cases hp
    · next vertexPath fragmentPath hvertex hfragment =>
        split at hp
        · cases hp
        · next vertex hv =>
            split at hp
            · cases hp
            · next fragment hf =>
                split at hp
                · cases hp
                · next geometry hg =>
                    refine ⟨by simp [hvertex], by simp [hfragment], fun stage path hpath => ?_⟩
                    cases stage with
                    | vertex =>
                        obtain rfl := Option.some.inj (hvertex.symm.trans hpath)
                        exact (uncachedStage_eq_ok_iff name).1 ⟨vertex, hv⟩
                    | fragment =>
                        obtain rfl := Option.some.inj (hfragment.symm.trans hpath)
                        exact (uncachedStage_eq_ok_iff name).1 ⟨fragment, hf⟩
                    | geometry =>
                        have hdeclared : spec.geometry = some path := hpath
                        rw [hdeclared, uncachedGeometry] at hg
                        cases hstage : pack.uncachedStage tools maxDepth name path .geometry with
                        | error failure => rw [hstage] at hg; cases hg
                        | ok artifact => exact (uncachedStage_eq_ok_iff name).1 ⟨artifact, hstage⟩
  · rintro ⟨hvertex, hfragment, haccepted⟩
    obtain ⟨vertexPath, hvertex⟩ := Option.isSome_iff_exists.1 hvertex
    obtain ⟨fragmentPath, hfragment⟩ := Option.isSome_iff_exists.1 hfragment
    obtain ⟨vertex, hv⟩ := (uncachedStage_eq_ok_iff name).2 (haccepted .vertex vertexPath hvertex)
    obtain ⟨fragment, hf⟩ :=
      (uncachedStage_eq_ok_iff name).2 (haccepted .fragment fragmentPath hfragment)
    have hgeometry : ∃ geometry,
        pack.uncachedGeometry tools maxDepth name spec.geometry = .ok geometry := by
      cases hpath : spec.geometry with
      | none => exact ⟨none, rfl⟩
      | some path =>
          obtain ⟨artifact, hg⟩ := (uncachedStage_eq_ok_iff name).2 (haccepted .geometry path hpath)
          exact ⟨some artifact, by rw [uncachedGeometry, hg]; rfl⟩
    obtain ⟨geometry, hg⟩ := hgeometry
    exact ⟨_, by simp only [hvertex, hfragment, hv, hf, hg]; rfl⟩

theorem fields_of_uncached {name : String} {p : Pipeline η}
    (h : pack.uncached tools maxDepth name spec = .ok p) :
    p.name = name ∧ p.pack = pack ∧ p.drawState = .ofSpec spec ∧ p.phase = .waiting := by
  unfold uncached at h
  repeat' split at h
  all_goals cases h
  exact ⟨rfl, rfl, rfl, rfl⟩

theorem uncached_of_toOption {name : String} {p : Pipeline η}
    (h : (pack.uncached tools maxDepth name spec).toOption = some p) :
    pack.uncached tools maxDepth name spec = .ok p := by
  cases hresult : pack.uncached (η := η) tools maxDepth name spec with
  | error failure => rw [hresult] at h; cases h
  | ok q => rw [hresult] at h; rw [Option.some.inj h]

/-- A pipeline of a pack that compiles is declared by it. -/
theorem mem_compiled {p : Pipeline η} :
    p ∈ pack.compiled tools maxDepth ↔
      ∃ spec, pack.pipelines.get? p.name = some spec ∧
        pack.uncached tools maxDepth p.name spec = .ok p := by
  unfold compiled
  rw [List.mem_filterMap]
  constructor
  · rintro ⟨entry, hentry, hp⟩
    have hok := uncached_of_toOption hp
    have hname := (fields_of_uncached hok).1
    exact ⟨entry.2, hname ▸ NameMap.get?_of_mem hentry, hname ▸ hok⟩
  · rintro ⟨spec, hspec, hok⟩
    exact ⟨(p.name, spec), mem_of_lookup hspec, by rw [hok]; rfl⟩

/-- The names of the good pipelines, and of no others, in ascending order. -/
theorem names_compiled (tools : Toolchain) (maxDepth : Nat) (pack : Pack) :
    ((pack.compiled (η := η) tools maxDepth).map Pipeline.name).Pairwise (· < ·) ∧
      ∀ name, name ∈ (pack.compiled (η := η) tools maxDepth).map Pipeline.name ↔
        ∃ spec, pack.pipelines.get? name = some spec ∧ pack.Good tools maxDepth spec := by
  constructor
  · rw [List.pairwise_map, compiled, List.pairwise_filterMap]
    refine pack.pipelines.ascending.imp ?_
    intro entry entry' hlt p hp p' hp'
    rw [(fields_of_uncached (uncached_of_toOption hp)).1,
      (fields_of_uncached (uncached_of_toOption hp')).1]
    exact hlt
  · intro name
    rw [List.mem_map]
    constructor
    · rintro ⟨p, hp, rfl⟩
      obtain ⟨spec, hspec, hok⟩ := mem_compiled.1 hp
      exact ⟨spec, hspec, (uncached_eq_ok_iff p.name).1 ⟨p, hok⟩⟩
    · rintro ⟨spec, hspec, hgood⟩
      obtain ⟨p, hp⟩ := (uncached_eq_ok_iff (η := η) name).2 hgood
      have hname := (fields_of_uncached hp).1
      exact ⟨p, mem_compiled.2 ⟨spec, hname ▸ hspec, hname ▸ hp⟩, hname⟩

end Pack

namespace Engine

variable {tools : Toolchain} {depth : Nat} {jobs : List CompileJob} {c : Compiler} {pack : Pack}
  {path : String} {stage : Stage} {spec : PipelineSpec}

/-! ### Compiling with a sound compiler -/

/-- A sound compiler stays sound over a shader and, if the keys are apart, makes of it what is made
of it without a cache. -/
theorem compileStage_sound (name : String) (h : c.Sound tools depth jobs)
    (hmem : ∀ source, pack.source? path = some source → pack.job path source stage ∈ jobs) :
    (compileStage tools c pack name path stage).2.Sound tools depth jobs ∧
      (Compiler.KeysApart tools depth jobs →
        (compileStage tools c pack name path stage).1.map Artifact.asCompiled =
          pack.uncachedStage tools depth name path stage) := by
  unfold compileStage Pack.uncachedStage
  cases hsource : pack.source? path with
  | none => exact ⟨h, fun _ => rfl⟩
  | some source => exact ⟨h.compile (hmem source hsource), h.answer (hmem source hsource)⟩

theorem compileGeometry_sound (name : String) (h : c.Sound tools depth jobs)
    {geometry : Option String}
    (hmem : ∀ path source, geometry = some path → pack.source? path = some source →
      pack.job path source .geometry ∈ jobs) :
    (compileGeometry tools c pack name geometry).2.Sound tools depth jobs ∧
      (Compiler.KeysApart tools depth jobs →
        (compileGeometry tools c pack name geometry).1.map (Option.map Artifact.asCompiled) =
          pack.uncachedGeometry tools depth name geometry) := by
  cases geometry with
  | none => exact ⟨h, fun _ => rfl⟩
  | some path =>
      obtain ⟨hsound, hanswer⟩ := compileStage_sound name h fun source =>
        hmem path source rfl
      simp only [compileGeometry, Pack.uncachedGeometry]
      rcases hresult : compileStage tools c pack name path .geometry with ⟨_ | artifact, c'⟩
      all_goals
        rw [hresult] at hsound hanswer
        refine ⟨hsound, fun hkeys => ?_⟩
        rw [← hanswer hkeys]
        rfl

/-- **A sound compiler makes of a pipeline what is made of it without a cache.** -/
theorem compilePipeline_sound (name : String) (h : c.Sound tools depth jobs)
    (hsub : pack.specJobs spec ⊆ jobs) :
    (compilePipeline (η := η) tools c pack name spec).2.Sound tools depth jobs ∧
      (Compiler.KeysApart tools depth jobs →
        (compilePipeline (η := η) tools c pack name spec).1.map Pipeline.asCompiled =
          pack.uncached tools depth name spec) := by
  have hmem : ∀ stage path source, spec.path? stage = some path →
      pack.source? path = some source → pack.job path source stage ∈ jobs :=
    fun stage path source hpath hsource => hsub (Pack.job_mem_specJobs hpath hsource)
  unfold compilePipeline Pack.uncached
  cases hvertex : spec.vertex with
  | none => exact ⟨h, fun _ => rfl⟩
  | some vertexPath =>
      cases hfragment : spec.fragment with
      | none => exact ⟨h, fun _ => rfl⟩
      | some fragmentPath =>
          -- The first stage that fails is the same with and without the cache.
          dsimp only
          obtain ⟨hsound, hanswer⟩ := compileStage_sound name h fun source =>
            hmem .vertex vertexPath source hvertex
          rcases hv : compileStage tools c pack name vertexPath .vertex with ⟨_ | vertex, c₁⟩
          · rw [hv] at hsound hanswer
            exact ⟨hsound, fun hkeys => by rw [← hanswer hkeys]; rfl⟩
          rw [hv] at hsound hanswer
          obtain ⟨hsound', hanswer'⟩ := compileStage_sound name hsound fun source =>
            hmem .fragment fragmentPath source hfragment
          dsimp only
          rcases hf : compileStage tools c₁ pack name fragmentPath .fragment with ⟨_ | fragment, c₂⟩
          · rw [hf] at hsound' hanswer'
            exact ⟨hsound', fun hkeys => by rw [← hanswer hkeys, ← hanswer' hkeys]; rfl⟩
          rw [hf] at hsound' hanswer'
          have hgeometry : ∀ path source, spec.geometry = some path →
              pack.source? path = some source → pack.job path source .geometry ∈ jobs :=
            fun path source => hmem .geometry path source
          obtain ⟨hsound'', hanswer''⟩ := compileGeometry_sound name hsound' hgeometry
          dsimp only at hsound'' hanswer'' ⊢
          rcases hg : compileGeometry tools c₂ pack name spec.geometry with ⟨_ | geometry, c₃⟩
          all_goals
            rw [hg] at hsound'' hanswer''
            refine ⟨hsound'', fun hkeys => ?_⟩
            rw [← hanswer hkeys, ← hanswer' hkeys, ← hanswer'' hkeys]
            rfl

/-! ### Taking a pack with a sound compiler -/

/-- The report on a pack of which some pipelines compiled. -/
def reportOn (pack : Pack) (fresh : List (Pipeline η)) : LoadReport where
  pack := pack.name
  found := pack.pipelines.size
  compiled := fresh.length
  registered := fresh.length
  failed := pack.pipelines.size - fresh.length
  pipelines := fresh.map Pipeline.name

/-- What taking some pipelines of a pack leads to. -/
theorem foldl_loadPipeline (entries : List (String × PipelineSpec))
    (hsub : ∀ entry ∈ entries, pack.specJobs entry.2 ⊆ jobs) :
    ∀ {e : Engine τ η}, e.compiler.Sound tools depth jobs → ∀ r : LoadReport,
      ∃ compiler, ∃ fresh : List (Pipeline η), compiler.Sound tools depth jobs ∧
        fresh.length ≤ entries.length ∧
        (Compiler.KeysApart tools depth jobs → fresh.map Pipeline.asCompiled =
          entries.filterMap fun entry => (pack.uncached tools depth entry.1 entry.2).toOption) ∧
        entries.foldl (loadPipeline tools pack) (e, r) =
          ({ e with compiler, catalog := e.catalog.registerAll fresh },
            { r with
              found := r.found + entries.length
              compiled := r.compiled + fresh.length
              registered := r.registered + fresh.length
              failed := r.failed + (entries.length - fresh.length)
              pipelines := r.pipelines ++ fresh.map Pipeline.name }) := by
  induction entries with
  | nil =>
      intro e h r
      exact ⟨e.compiler, [], h, Nat.le_refl _, fun _ => rfl, by simp [Catalog.registerAll]⟩
  | cons entry entries ih =>
      intro e h r
      obtain ⟨hsound, hanswer⟩ := compilePipeline_sound (η := η) entry.1 h
        (hsub entry List.mem_cons_self)
      have ih := @ih fun other hother => hsub other (.tail _ hother)
      rw [List.foldl_cons, loadPipeline]
      rcases hresult : compilePipeline (η := η) tools e.compiler pack entry.1 entry.2 with
        ⟨failure | p, compiler⟩
      · rw [hresult] at hsound hanswer
        obtain ⟨compiler', fresh, hsound', hlength, hfresh, heq⟩ := @ih { e with compiler } hsound
          { r with found := r.found + 1, failed := r.failed + 1 }
        refine ⟨compiler', fresh, hsound', Nat.le_succ_of_le hlength, fun hkeys => ?_, ?_⟩
        · rw [List.filterMap_cons, ← hanswer hkeys]
          exact hfresh hkeys
        · rw [heq]
          simp only [List.length_cons, Prod.mk.injEq, LoadReport.mk.injEq, true_and, and_true]
          omega
      · rw [hresult] at hsound hanswer
        obtain ⟨compiler', fresh, hsound', hlength, hfresh, heq⟩ :=
          @ih { e with compiler, catalog := (e.catalog.register p).2 } hsound
          { r with
            found := r.found + 1
            compiled := r.compiled + 1
            registered := r.registered + 1
            pipelines := r.pipelines ++ [entry.1] }
        refine ⟨compiler', p :: fresh, hsound', Nat.succ_le_succ hlength, fun hkeys => ?_, ?_⟩
        · rw [List.filterMap_cons, ← hanswer hkeys, List.map_cons, hfresh hkeys]
          rfl
        · rw [heq]
          have hname := (fields_of_compilePipeline hresult).1
          simp only [Catalog.registerAll_cons, List.length_cons, List.map_cons, hname,
            Prod.mk.injEq, LoadReport.mk.injEq, true_and, List.append_assoc,
            List.singleton_append, and_true]
          omega

/-- **An accepted pack registers its good pipelines, and reports them.** -/
theorem loadPack_of_ok {e : Engine τ η} (h : e.compiler.Sound tools depth jobs)
    (hsub : pack.jobs ⊆ jobs) (hcheck : pack.check = .ok ()) :
    ∃ compiler, ∃ fresh : List (Pipeline η), compiler.Sound tools depth jobs ∧
      (Compiler.KeysApart tools depth jobs →
        fresh.map Pipeline.asCompiled = pack.compiled tools depth) ∧
      e.loadPack tools pack =
        (.ok (reportOn pack fresh),
          { e with
            compiler
            shelf := e.shelf.register pack
            catalog := e.catalog.registerAll fresh }) := by
  obtain ⟨compiler, fresh, hsound, -, hfresh, heq⟩ :=
    foldl_loadPipeline (e := { e with shelf := e.shelf.register pack }) pack.pipelines.entries
      (fun _ hentry => List.Subset.trans (Pack.specJobs_subset_jobs hcheck hentry) hsub) h
      { pack := pack.name }
  refine ⟨compiler, fresh, hsound, hfresh, ?_⟩
  rw [loadPack, hcheck]
  dsimp only
  rw [heq]
  simp [reportOn, NameMap.size]

end Engine

end Shaderworks
