/-
**What the host builds is what was compiled.**

Between a manifest and the host a pipeline passes through the compiler with its cache, the catalog
and its own phases.  When the host is made to build it, it is handed the bytecode that the compiler
answered with for each stage, the bindings of the stages whose source was converted, in stage order,
and the draw state of the manifest.

The bindings do not depend on where the bytecode came from: they are those that the converter gives
for the expanded source of the stage, and there are none if it is native or the converter fails.
They travel with the artifact of each stage, so it does not matter which paths the stages share.

Main definitions:

* `Pack.converted?` — the bindings of a stage, said without a compiler;
* `Engine.compilerAfter` — the compiler once some pipelines of a pack were compiled;
* `Engine.Compiles` — the stages of a pipeline, compiled one after the other;
* `Pack.buildRequest` — what the host is to be handed.

Main results:

* `Engine.bindings_of_compileStage` — a compiled stage has the bindings of its conversion;
* `Engine.foldl_registers` — what a pack registers under a name;
* `Engine.mem_pipelines_of_good` — a good pipeline is registered, whatever the cache has;
* `Catalog.activate_of_waiting` — a waiting pipeline is built by one request;
* `Engine.activate_of_loadPack` — **what the host builds is what was compiled.**
-/

import Shaderworks.Proofs.Engine.Compiling
import Mathlib.Data.List.Induction

set_option autoImplicit false

namespace Shaderworks

variable {τ η : Type}

/-! ### Bindings -/

/-- The resources of several shaders, the buffers and the samplers apart. -/
theorem Bindings.join_eq (parts : List Bindings) :
    Bindings.join parts =
      ⟨parts.flatMap Bindings.uniformBuffers, parts.flatMap Bindings.samplers⟩ := by
  induction parts with
  | nil => rfl
  | cons part parts ih =>
      change part ++ Bindings.join parts = _
      rw [ih]
      rfl

/-- The bindings of a compiled stage. -/
def Pipeline.stageBindings? (p : Pipeline η) : Stage → Option Bindings
  | .vertex => p.vertex.bindings
  | .fragment => p.fragment.bindings
  | .geometry => p.geometry.bind Artifact.bindings

theorem Pipeline.filterMap_artifacts (p : Pipeline η) :
    p.artifacts.filterMap Artifact.bindings = Stage.all.filterMap p.stageBindings? := by
  have hgeometry : p.geometry.toList.filterMap Artifact.bindings =
      (p.geometry.bind Artifact.bindings).toList := by
    cases p.geometry with
    | none => rfl
    | some artifact => cases h : artifact.bindings <;> simp [h]
  rw [Pipeline.artifacts, List.filterMap_append, hgeometry]
  cases hv : p.vertex.bindings <;> cases hf : p.fragment.bindings <;>
    cases hg : p.geometry.bind Artifact.bindings <;>
      simp [Stage.all, Pipeline.stageBindings?, hv, hf, hg]

/-- The bindings of a file of a pack as the shader of a stage: those that the converter gives, if
the expanded source is a legacy one and is converted. -/
def Pack.converted? (tools : Toolchain) (maxDepth : Nat) (pack : Pack) (stage : Stage)
    (path : String) : Option Bindings :=
  match (pack.source? path).map fun source =>
      Shader.expand pack.sources maxDepth source path with
  | some (.ok expanded) => (Compiler.finalSource tools stage expanded).2
  | _ => none

theorem Pack.converted?_of_expand {tools : Toolchain} {maxDepth : Nat} {pack : Pack} {stage : Stage}
    {path source expanded : String} (hsource : pack.source? path = some source)
    (hexpand : Shader.expand pack.sources maxDepth source path = .ok expanded) :
    pack.converted? tools maxDepth stage path = (tools.prepare stage expanded).bindings := by
  simp only [Pack.converted?, hsource, Option.map_some, hexpand, Compiler.finalSource_eq]

/-! ### Compiled stages -/

namespace Engine

variable {tools : Toolchain} {pack : Pack} {name path : String} {stage : Stage}
  {spec : PipelineSpec}

theorem maxDepth_of_compileStage {c c' : Compiler} {result : Except Failure Artifact}
    (h : compileStage tools c pack name path stage = (result, c')) : c'.maxDepth = c.maxDepth := by
  unfold compileStage at h
  split at h
  · cases h
    rfl
  · rw [← Compiler.maxDepth_compile tools c, h]

/-- **A compiled stage has the bindings of its conversion,** wherever its bytecode came from. -/
theorem bindings_of_compileStage {c c' : Compiler} {artifact : Artifact}
    (h : compileStage tools c pack name path stage = (.ok artifact, c')) :
    artifact.bindings = pack.converted? tools c.maxDepth stage path := by
  unfold compileStage at h
  cases hsource : pack.source? path with
  | none =>
      rw [hsource] at h
      cases h
  | some source =>
      simp only [hsource] at h
      have houtcome := h ▸ Compiler.outcome_compile tools c
        { sources := pack.sources, name := path, source, stage, version := pack.version }
      cases houtcome with
      | cached hexpand hprepared _ _ | compiled hexpand hprepared _ _ _ =>
          rw [Pack.converted?_of_expand hsource hexpand]
          exact congrArg Prepared.bindings hprepared

theorem maxDepth_of_compileGeometry {c c' : Compiler} {geometry : Option String}
    {result : Except Failure (Option Artifact)}
    (h : compileGeometry tools c pack name geometry = (result, c')) : c'.maxDepth = c.maxDepth := by
  unfold compileGeometry at h
  split at h
  · cases h
    rfl
  · split at h
    all_goals
      next hstage =>
        cases h
        exact maxDepth_of_compileStage hstage

/-- The geometry shader is compiled exactly if one is declared. -/
theorem bindings_of_compileGeometry {c c' : Compiler} {geometry : Option String}
    {artifact : Option Artifact}
    (h : compileGeometry tools c pack name geometry = (.ok artifact, c')) :
    artifact.isSome = geometry.isSome ∧
      artifact.bind Artifact.bindings =
        geometry.bind (pack.converted? tools c.maxDepth .geometry) := by
  unfold compileGeometry at h
  split at h
  · cases h
    exact ⟨rfl, rfl⟩
  · split at h
    · cases h
    · next hstage =>
        cases h
        exact ⟨rfl, bindings_of_compileStage hstage⟩

/-- The stages of a pipeline are compiled one after the other, and answered with artifacts. -/
def Compiles (tools : Toolchain) (c : Compiler) (pack : Pack) (name : String) (spec : PipelineSpec)
    (vertex fragment : Artifact) (geometry : Option Artifact) : Prop :=
  ∃ vertexPath fragmentPath c₁ c₂ c₃,
    spec.vertex = some vertexPath ∧ spec.fragment = some fragmentPath ∧
    compileStage tools c pack name vertexPath .vertex = (.ok vertex, c₁) ∧
    compileStage tools c₁ pack name fragmentPath .fragment = (.ok fragment, c₂) ∧
    compileGeometry tools c₂ pack name spec.geometry = (.ok geometry, c₃)

theorem compiles_of_compilePipeline {c c' : Compiler} {p : Pipeline η}
    (h : compilePipeline tools c pack name spec = (.ok p, c')) :
    Compiles tools c pack name spec p.vertex p.fragment p.geometry := by
  unfold compilePipeline at h
  split at h
  · cases h
  · cases h
  · next vertexPath fragmentPath hvertex hfragment =>
      split at h
      · cases h
      · next vertex c₁ hv =>
          split at h
          · cases h
          · next fragment c₂ hf =>
              split at h
              · cases h
              · next geometry c₃ hg =>
                  cases h
                  exact ⟨vertexPath, fragmentPath, c₁, c₂, c', hvertex, hfragment, hv, hf, hg⟩

theorem maxDepth_compilePipeline (c : Compiler) :
    (compilePipeline (η := η) tools c pack name spec).2.maxDepth = c.maxDepth := by
  unfold compilePipeline
  split
  · rfl
  · rfl
  · split
    · next hv => exact maxDepth_of_compileStage hv
    · next hv =>
        have hvertex := maxDepth_of_compileStage hv
        split
        · next hf => exact (maxDepth_of_compileStage hf).trans hvertex
        · next hf =>
            have hfragment := (maxDepth_of_compileStage hf).trans hvertex
            split
            all_goals
              next hg => exact (maxDepth_of_compileGeometry hg).trans hfragment

/-- The bindings of a compiled pipeline are those of its converted stages, in stage order. -/
theorem bindings_of_compilePipeline {c c' : Compiler} {p : Pipeline η}
    (h : compilePipeline tools c pack name spec = (.ok p, c')) :
    p.geometry.isSome = spec.geometry.isSome ∧
      p.artifacts.filterMap Artifact.bindings =
        spec.shaderPaths.filterMap fun shader =>
          pack.converted? tools c.maxDepth shader.1 shader.2 := by
  obtain ⟨vertexPath, fragmentPath, c₁, c₂, c₃, hvertex, hfragment, hv, hf, hg⟩ :=
    compiles_of_compilePipeline h
  have hbv := bindings_of_compileStage hv
  have hbf := bindings_of_compileStage hf
  obtain ⟨hsome, hbg⟩ := bindings_of_compileGeometry hg
  rw [maxDepth_of_compileStage hf, maxDepth_of_compileStage hv] at hbg
  rw [maxDepth_of_compileStage hv] at hbf
  refine ⟨hsome, ?_⟩
  rw [p.filterMap_artifacts, PipelineSpec.shaderPaths, List.filterMap_filterMap]
  refine List.filterMap_congr fun stage _ => ?_
  cases stage with
  | vertex => simp [Pipeline.stageBindings?, PipelineSpec.path?, hvertex, hbv]
  | fragment => simp [Pipeline.stageBindings?, PipelineSpec.path?, hfragment, hbf]
  | geometry =>
      rw [Pipeline.stageBindings?, hbg]
      cases hgeometry : spec.geometry <;> simp [PipelineSpec.path?, hgeometry]

/-! ### What a pack registers -/

/-- The compiler of an engine once some pipelines of a pack were compiled. -/
def compilerAfter (tools : Toolchain) (e : Engine τ η) (pack : Pack)
    (entries : List (String × PipelineSpec)) : Compiler :=
  entries.foldl (fun c entry => (compilePipeline (η := η) tools c pack entry.1 entry.2).2)
    e.compiler

theorem maxDepth_compilerAfter (e : Engine τ η) (entries : List (String × PipelineSpec)) :
    (e.compilerAfter tools pack entries).maxDepth = e.compiler.maxDepth := by
  induction entries using List.reverseRecOn with
  | nil => rfl
  | append_singleton entries entry ih =>
      rw [compilerAfter, List.foldl_concat, maxDepth_compilePipeline]
      exact ih

theorem compiler_loadPipeline (state : Engine τ η × LoadReport) (entry : String × PipelineSpec) :
    (loadPipeline tools pack state entry).1.compiler =
      (compilePipeline (η := η) tools state.1.compiler pack entry.1 entry.2).2 := by
  unfold loadPipeline
  dsimp only
  split <;> next h => rw [h]

theorem compiler_foldl (tools : Toolchain) (pack : Pack) (e : Engine τ η) (r : LoadReport)
    (entries : List (String × PipelineSpec)) :
    (entries.foldl (loadPipeline tools pack) (e, r)).1.compiler =
      e.compilerAfter tools pack entries := by
  induction entries using List.reverseRecOn with
  | nil => rfl
  | append_singleton entries entry ih =>
      rw [List.foldl_concat, compiler_loadPipeline, ih, compilerAfter, compilerAfter,
        List.foldl_concat]

/-- **What a pack registers under a name** is what the compiler made of the pipeline of that name
when it came to it. -/
theorem foldl_registers {e : Engine τ η} (h : e.catalog.Indexed)
    (entries : List (String × PipelineSpec)) :
    ∀ name ∈ (entries.foldl (loadPipeline tools pack) (e, { pack := pack.name })).2.pipelines,
      ∃ before spec after, ∃ p : Pipeline η, ∃ c', entries = before ++ (name, spec) :: after ∧
        compilePipeline tools (e.compilerAfter tools pack before) pack name spec = (.ok p, c') ∧
        (entries.foldl (loadPipeline tools pack) (e, { pack := pack.name })).1.catalog.get? name =
          some p := by
  induction entries using List.reverseRecOn with
  | nil => exact fun name hname => absurd hname List.not_mem_nil
  | append_singleton entries entry ih =>
      have hstart : Loaded e e { pack := pack.name } :=
        ⟨h, rfl, rfl, rfl, rfl, fun _ hname => absurd hname List.not_mem_nil, fun _ _ => rfl⟩
      have hindexed : (entries.foldl (loadPipeline tools pack)
          (e, { pack := pack.name })).1.catalog.Indexed := (loaded_foldl entries hstart).indexed
      have hcompiler := compiler_foldl tools pack e { pack := pack.name } entries
      rw [List.foldl_concat]
      generalize entries.foldl (loadPipeline tools pack) (e, { pack := pack.name }) = state at *
      have hkept : ∀ name, name ∈ state.2.pipelines → ∃ before spec after, ∃ p : Pipeline η, ∃ c',
          entries ++ [entry] = before ++ (name, spec) :: after ∧
            compilePipeline tools (e.compilerAfter tools pack before) pack name spec =
              (.ok p, c') ∧ state.1.catalog.get? name = some p := by
        intro name hname
        obtain ⟨before, spec, after, p, c', rfl, hcompile, hget⟩ := ih name hname
        exact ⟨before, spec, after ++ [entry], p, c', by simp, hcompile, hget⟩
      intro name hname
      unfold loadPipeline at hname ⊢
      dsimp only at hname ⊢
      rcases hcompile : compilePipeline (η := η) tools state.1.compiler pack entry.1 entry.2 with
        ⟨_ | p, c'⟩
      · rw [hcompile] at hname
        exact hkept name hname
      · rw [hcompile] at hname
        dsimp only at hname ⊢
        have hget := Catalog.get?_register p hindexed name
        rw [(fields_of_compilePipeline hcompile).1] at hget
        by_cases hlast : name = entry.1
        · subst hlast
          rw [hcompiler] at hcompile
          exact ⟨entries, entry.2, [], p, c', rfl, hcompile, hget.trans (if_pos rfl)⟩
        · rw [List.mem_append, List.mem_singleton, or_iff_left hlast] at hname
          rw [hget, if_neg hlast]
          exact hkept name hname

/-! ### Good pipelines are registered -/

/-- A stage that the host accepts is compiled, whatever the cache has. -/
theorem compileStage_of_accepts (name : String) {c : Compiler}
    (h : pack.Accepts tools c.maxDepth stage path) :
    ∃ artifact c', compileStage tools c pack name path stage = (.ok artifact, c') := by
  obtain ⟨source, expanded, bytecode, hsource, hexpand, hcompile⟩ := h
  have hanswer := Compiler.compile_fst tools c (pack.job path source stage)
  rw [Compiler.finalSource_eq] at hcompile
  simp only [Compiler.answer, Pack.job, hexpand, hcompile] at hanswer
  simp only [compileStage, hsource]
  generalize c.compile tools _ = result at hanswer ⊢
  obtain ⟨answer, c'⟩ := result
  dsimp only at hanswer
  split at hanswer
  all_goals
    subst hanswer
    exact ⟨_, _, rfl⟩

/-- A good pipeline is compiled, whatever the cache has. -/
theorem compilePipeline_of_good (name : String) {c : Compiler}
    (h : pack.Good tools c.maxDepth spec) :
    ∃ p c', compilePipeline (η := η) tools c pack name spec = (.ok p, c') := by
  obtain ⟨vertexPath, hvertex⟩ := Option.isSome_iff_exists.1 h.vertex
  obtain ⟨fragmentPath, hfragment⟩ := Option.isSome_iff_exists.1 h.fragment
  obtain ⟨vertex, c₁, hv⟩ := compileStage_of_accepts name
    (h.accepted .vertex vertexPath hvertex)
  have hc₁ := maxDepth_of_compileStage hv
  obtain ⟨fragment, c₂, hf⟩ := compileStage_of_accepts name
    (hc₁ ▸ h.accepted .fragment fragmentPath hfragment)
  have hc₂ := (maxDepth_of_compileStage hf).trans hc₁
  have hg : ∃ geometry c₃,
      compileGeometry tools c₂ pack name spec.geometry = (.ok geometry, c₃) := by
    cases hgeometry : spec.geometry with
    | none => exact ⟨none, c₂, rfl⟩
    | some path =>
        obtain ⟨geometry, c₃, hg⟩ := compileStage_of_accepts name
          (hc₂ ▸ h.accepted .geometry path hgeometry)
        exact ⟨some geometry, c₃, by rw [compileGeometry, hg]⟩
  obtain ⟨geometry, c₃, hg⟩ := hg
  exact ⟨_, _, by simp only [compilePipeline, hvertex, hfragment, hv, hf, hg]; rfl⟩

/-- A pack without a defect is accepted. -/
theorem loadPack_of_check (tools : Toolchain) (e : Engine τ η) (h : pack.check = .ok ()) :
    ∃ report e', e.loadPack tools pack = (.ok report, e') := by
  rw [loadPack, h]
  exact ⟨_, _, rfl⟩

/-- **A good pipeline is registered**, whatever the cache has. -/
theorem mem_pipelines_of_good {e e' : Engine τ η} {report : LoadReport}
    (hload : e.loadPack tools pack = (.ok report, e'))
    (hspec : pack.pipelines.get? name = some spec)
    (hgood : pack.Good tools e.compiler.maxDepth spec) : name ∈ report.pipelines := by
  have hfold : ∀ (entries : List (String × PipelineSpec)) (e : Engine τ η) (r : LoadReport),
      (name, spec) ∈ entries → pack.Good tools e.compiler.maxDepth spec →
        name ∈ (entries.foldl (loadPipeline tools pack) (e, r)).2.pipelines := by
    intro entries e r
    induction entries using List.reverseRecOn with
    | nil => exact fun hmem => absurd hmem List.not_mem_nil
    | append_singleton entries entry ih =>
        intro hmem hgood
        have hcompiler := compiler_foldl tools pack e r entries
        rw [List.foldl_concat]
        rcases hstep : entries.foldl (loadPipeline tools pack) (e, r) with ⟨e₁, r₁⟩
        rw [hstep] at ih hcompiler
        rcases List.mem_append.1 hmem with hmem | hmem
        · rcases loadPipeline_cases tools pack e₁ r₁ entry with
            ⟨compiler, heq⟩ | ⟨compiler, p, -, heq⟩
          · rw [heq]
            exact ih hmem hgood
          · rw [heq]
            exact List.mem_append_left _ (ih hmem hgood)
        · obtain rfl := List.mem_singleton.1 hmem
          dsimp only at hcompiler
          rw [← maxDepth_compilerAfter e entries, ← hcompiler] at hgood
          obtain ⟨p, c', hcompile⟩ := compilePipeline_of_good (η := η) name hgood
          simp [loadPipeline, hcompile]
  unfold loadPack at hload
  split at hload
  · cases hload
  · cases hload
    exact hfold _ _ _ (mem_of_lookup hspec) hgood

end Engine

/-! ### Building -/

namespace Catalog

variable {c : Catalog τ η} {name : String} {id : PipelineId} {p : Pipeline η}

/-- **A waiting pipeline is built by one request**, which decides everything. -/
theorem activate_of_waiting (hid : c.index.get? name = some id) (hp : c.held? id = some p)
    (hwaiting : p.phase = .waiting) (answer : BuildRequest τ → Except Cause η) (template : τ) :
    c.activate answer name template =
      match answer (p.request template) with
      | .error cause => (.error (.pipelineBuild p.name cause), c)
      | .ok handle =>
          (.ok true, c.update id
            ({ p with phase := .built handle }, [.built (p.request template) handle])) := by
  simp only [activate, hid, buildOf, hp, Pipeline.build, hwaiting]
  cases answer (p.request template) <;> rfl

/-- A pipeline that still waits is what it was. -/
theorem held?_after_of_waiting {steps : List (CatalogStep τ η)} (hp : c.held? id = some p)
    (hphase : p.phase = .waiting) (hwaiting : (c.after steps).phase? id = some .waiting) :
    (c.after steps).held? id = some p := by
  obtain ⟨q, hq, hlater⟩ := carries_after c steps id p hp
  rw [phase?, hq, Option.map_some, Option.some.injEq] at hwaiting
  rw [hq, hlater.same, hwaiting, ← hphase]

end Catalog

/-- What the host is to be handed for a pipeline of a pack, with the bytecode of its stages. -/
def Pack.buildRequest (tools : Toolchain) (maxDepth : Nat) (pack : Pack) (name : String)
    (spec : PipelineSpec) (vertex fragment : Artifact) (geometry : Option Artifact)
    (template : τ) : BuildRequest τ where
  template := template
  name := name
  vertexFormat := spec.vertexFormat
  vertex := vertex.bytecode
  fragment := fragment.bytecode
  geometry := geometry.map Artifact.bytecode
  bindings :=
    let parts := spec.shaderPaths.filterMap fun shader =>
      pack.converted? tools maxDepth shader.1 shader.2
    ⟨parts.flatMap Bindings.uniformBuffers, parts.flatMap Bindings.samplers⟩
  drawState := .ofSpec spec

namespace Engine

variable {tools : Toolchain} {pack : Pack} {name : String} {spec : PipelineSpec}

theorem request_of_compilePipeline {c c' : Compiler} {p : Pipeline η}
    (h : compilePipeline tools c pack name spec = (.ok p, c')) (template : τ) :
    p.request template = pack.buildRequest tools c.maxDepth name spec p.vertex p.fragment
      p.geometry template := by
  obtain ⟨hname, -, hstate, -⟩ := fields_of_compilePipeline h
  have hparts := (bindings_of_compilePipeline h).2
  simp only [Pipeline.request, Pack.buildRequest, Pipeline.bindings, hname, hstate, hparts,
    Bindings.join_eq, DrawState.ofSpec]

/-- **What the host builds is what was compiled,** for an engine whose catalog is in order, as it is
in every engine that can be reached.

Each pipeline that an accepted pack registers is catalogued under a number and waits.  Its stages
are compiled when loading comes to it.  However the catalog is used from then on: while its name
still leads to this number and it waits, activating it succeeds exactly if the host answers one
request with a handle, and then this is what was built.  The request has the bytecode that the
compiler answered with for each stage, for a geometry shader exactly if one is declared; the
bindings of the converted stages, in stage order; and the draw state and the vertex format of the
manifest. -/
theorem activate_of_loadPack {e e' : Engine τ η} {report : LoadReport} (h : e.catalog.Indexed)
    (hload : e.loadPack tools pack = (.ok report, e')) (hname : name ∈ report.pipelines) :
    ∃ before spec after vertex fragment geometry id,
      pack.pipelines.entries = before ++ (name, spec) :: after ∧
      Compiles tools (e.compilerAfter tools pack before) pack name spec vertex fragment geometry ∧
      geometry.isSome = spec.geometry.isSome ∧
      e'.catalog.index.get? name = some id ∧ e'.catalog.phase? id = some .waiting ∧
      ∀ (steps : List (CatalogStep τ η)) (answer : BuildRequest τ → Except Cause η) (template : τ)
        (c : Catalog τ η), c = e'.catalog.after steps → c.index.get? name = some id →
          c.phase? id = some .waiting →
            ∃ request,
              request = pack.buildRequest tools e.compiler.maxDepth name spec vertex fragment
                geometry template ∧
              ((c.activate answer name template).1 = .ok true ↔
                ∃ handle, answer request = .ok handle) ∧
              ∀ handle, answer request = .ok handle →
                (c.activate answer name template).2.events =
                  c.events ++ [.built request handle] := by
  have hindexed := (loaded_of_loadPack h hload).indexed
  unfold loadPack at hload
  split at hload
  · cases hload
  · cases hload
    obtain ⟨before, spec, after, p, c₁, hentries, hcompile, hget⟩ :=
      foldl_registers (e := { e with shelf := e.shelf.register pack }) h pack.pipelines.entries
        name hname
    rw [hindexed.get?_eq] at hget
    obtain ⟨id, hid, hp⟩ := Option.bind_eq_some_iff.1 hget
    obtain ⟨-, -, -, hphase⟩ := fields_of_compilePipeline hcompile
    refine ⟨before, spec, after, p.vertex, p.fragment, p.geometry, id, hentries,
      compiles_of_compilePipeline hcompile, (bindings_of_compilePipeline hcompile).1, hid, ?_, ?_⟩
    · rw [Catalog.phase?, hp, Option.map_some, hphase]
    · rintro steps answer template c rfl hindex hwaiting
      have hheld := Catalog.held?_after_of_waiting hp hphase hwaiting
      have hrequest := request_of_compilePipeline hcompile template
      rw [maxDepth_compilerAfter] at hrequest
      refine ⟨p.request template, hrequest, ?_, fun handle hanswer => ?_⟩
      · rw [Catalog.activate_of_waiting hindex hheld hphase]
        cases answer (p.request template) <;> simp
      · rw [Catalog.activate_of_waiting hindex hheld hphase, hanswer]
        rfl

/-- A host that converts vertex and fragment shaders only, each with a sampler of its own. -/
def samplers : Toolchain where
  convert := fun stage source =>
    match stage with
    | .vertex => .ok ⟨"// native\n" ++ source, { samplers := [⟨0, "lightmap"⟩] }⟩
    | .fragment => .ok ⟨"// native\n" ++ source, { samplers := [⟨1, "diffuse"⟩] }⟩
    | .geometry => .error (noConversion .geometry)
  compile := fun _ _ source => .ok (Bytes.ofText source)

/-- A pipeline whose three stages share one legacy file. -/
def sharedSpec : PipelineSpec :=
  { vertex := some "all.glsl", fragment := some "all.glsl", geometry := some "all.glsl" }

/-- A pack with this pipeline. -/
def shared : Pack :=
  (Pack.named "shared" "1.0").withPipeline "p" sharedSpec
    |>.withSource "all.glsl" "uniform vec4 tint;\n"

/-- Three stages of one file are built with the bindings of the two that are converted. -/
theorem activate_of_loadPack_shared :
    let e : Engine Unit Nat :=
      { settings := {}
        compiler :=
          { cache := { files := (FileTree.empty.createDirectories "cache").2, dir := "cache" }
            maxDepth := 32 } }
    e.catalog.Indexed ∧
      ∃ report e' request, e.loadPack samplers shared = (.ok report, e') ∧
        "p" ∈ report.pipelines ∧
        (e'.catalog.activate (fun _ => .ok 7) "p" ()).1 = .ok true ∧
        (e'.catalog.activate (fun _ => .ok 7) "p" ()).2.events =
          e'.catalog.events ++ [.built request 7] ∧
        request.bindings = { samplers := [⟨0, "lightmap"⟩, ⟨1, "diffuse"⟩] } ∧
        request.geometry.isSome = true := by
  intro e
  have hindexed : e.catalog.Indexed := Catalog.blank_empty.indexed
  have hcheck : shared.check = .ok () := by decide +kernel
  have hgood : shared.Good samplers 32 sharedSpec := by
    refine ⟨rfl, rfl, fun stage path hpath => ?_⟩
    obtain rfl : "all.glsl" = path := by cases stage <;> exact Option.some.inj hpath
    have hsource : shared.source? "all.glsl" = some "uniform vec4 tint;\n" := by decide +kernel
    have hexpand : Shader.expand shared.sources 32 "uniform vec4 tint;\n" "all.glsl" =
        .ok "uniform vec4 tint;\n" := by decide +kernel
    have hcompile (source : String) :
        samplers.compile "all.glsl" stage source = .ok (Bytes.ofText source) := rfl
    exact ⟨_, _, _, hsource, hexpand, hcompile _⟩
  obtain ⟨report, e', hload⟩ := loadPack_of_check samplers e hcheck
  have hname : "p" ∈ report.pipelines :=
    mem_pipelines_of_good hload (by decide +kernel) hgood
  obtain ⟨before, spec, after, vertex, fragment, geometry, id, hentries, -, hgeometry, hid,
    hwaiting, hbuilds⟩ := activate_of_loadPack hindexed hload hname
  have hspec : spec = sharedSpec := by
    have hone : shared.pipelines.entries = [("p", sharedSpec)] := by decide +kernel
    have hmem : ("p", spec) ∈ shared.pipelines.entries := by simp [hentries]
    rw [hone, List.mem_singleton, Prod.mk.injEq] at hmem
    exact hmem.2
  subst hspec
  obtain ⟨request, hrequest, hsucceeds, hevents⟩ :=
    hbuilds [] (fun _ => .ok 7) () e'.catalog rfl hid hwaiting
  refine ⟨hindexed, report, e', request, hload, hname, hsucceeds.2 ⟨7, rfl⟩, hevents 7 rfl, ?_, ?_⟩
  · have hparts : (sharedSpec.shaderPaths.filterMap fun shader =>
        shared.converted? samplers 32 shader.1 shader.2) =
        [{ samplers := [⟨0, "lightmap"⟩] }, { samplers := [⟨1, "diffuse"⟩] }] := by
      decide +kernel
    rw [hrequest]
    exact congrArg (fun parts : List Bindings =>
      Bindings.mk (parts.flatMap Bindings.uniformBuffers) (parts.flatMap Bindings.samplers))
      hparts
  · rw [hrequest, Pack.buildRequest, Option.isSome_map, hgeometry]
    rfl

end Engine

end Shaderworks
