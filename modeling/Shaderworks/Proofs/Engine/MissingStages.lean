/-
**What a check of a pack is good for.**

The check of a pack and the building of its pipelines look at the sources each on their own.  The check
makes sure that every shader is there that a pipeline declares, so building never meets a missing source.
What it lets pass is a pipeline that declares a vertex shader alone, or a fragment shader alone: such a
pipeline is refused when it is built, for the shader that it lacks, before anything is compiled.

Main definitions:

* `PipelineSpec.LacksOnly` — a pipeline declares just one of the vertex and the fragment shader.

Main results:

* `Engine.compile_ne_missing` — compiling a source reports no missing shader;
* `Engine.compilePipeline_eq_missing_iff` — when building a complete pipeline does;
* `Engine.defects_and_missing_stages` — **what the check reports, and what it leaves to be reported.**
-/

import Shaderworks.Proofs.Bytecode.Transparency
import Shaderworks.Proofs.Engine.Loading
import Shaderworks.Proofs.Pack.FirstDefect

set_option autoImplicit false

namespace Shaderworks

variable {η : Type}

/-- Of the vertex and the fragment shader, a pipeline declares not the one of this stage but the
other. -/
def PipelineSpec.LacksOnly (spec : PipelineSpec) : Stage → Prop
  | .vertex => spec.vertex = none ∧ spec.fragment.isSome = true
  | .fragment => spec.vertex.isSome = true ∧ spec.fragment = none
  | .geometry => False

namespace Engine

variable {tools : Toolchain} {c : Compiler} {pack : Pack} {name path : String} {stage : Stage}
  {spec : PipelineSpec}

/-! ### Compiling a shader -/

/-- Compiling a source reports no missing shader. -/
theorem compile_ne_missing (job : CompileJob) (pipeline : String) (stage : Stage) :
    (c.compile tools job).1 ≠ .error (.missingStage pipeline stage) := by
  cases houtcome : c.compile tools job with
  | mk answer after =>
      have hcases := Compiler.outcome_compile tools c job
      rw [houtcome] at hcases
      cases hcases <;> exact fun heq => nomatch heq

/-- Nor does compiling a shader of a pack that is among its sources. -/
theorem compileStage_ne_missing (tools : Toolchain) (c : Compiler)
    (hsource : (pack.source? path).isSome = true) (name : String) (stage : Stage)
    (pipeline : String) (other : Stage) :
    (compileStage tools c pack name path stage).1 ≠ .error (.missingStage pipeline other) := by
  obtain ⟨source, hsource⟩ := Option.isSome_iff_exists.1 hsource
  simp only [compileStage, hsource]
  exact compile_ne_missing _ pipeline other

theorem compileGeometry_ne_missing (tools : Toolchain) (c : Compiler)
    (hsource : ∀ path, spec.geometry = some path → (pack.source? path).isSome = true)
    (name pipeline : String) (other : Stage) :
    (compileGeometry tools c pack name spec.geometry).1 ≠
      .error (.missingStage pipeline other) := by
  cases hpath : spec.geometry with
  | none => exact fun heq => nomatch heq
  | some path =>
      have hstage := compileStage_ne_missing tools c (hsource path hpath) name .geometry pipeline
        other
      rw [compileGeometry]
      rcases hresult : compileStage tools c pack name path .geometry with ⟨failure | artifact, c'⟩
      · rw [hresult] at hstage
        simpa using hstage
      · exact fun heq => nomatch heq

/-! ### Building a pipeline -/

/-- **A complete pipeline is refused for a missing shader exactly when it lacks just that one** of the
vertex and the fragment shader, and its own name is given. -/
theorem compilePipeline_eq_missing_iff (hcomplete : pack.PipelineComplete spec) (pipeline : String)
    (stage : Stage) :
    (compilePipeline (η := η) tools c pack name spec).1 = .error (.missingStage pipeline stage) ↔
      pipeline = name ∧ spec.LacksOnly stage := by
  obtain ⟨hsome, hsources⟩ := hcomplete
  unfold compilePipeline
  cases hvertex : spec.vertex with
  | none =>
      rw [hvertex] at hsome
      have hfragment : spec.fragment.isSome = true := hsome.resolve_left (by simp)
      cases stage <;> simp [PipelineSpec.LacksOnly, hvertex, hfragment, eq_comm]
  | some vertexPath =>
      cases hfragment : spec.fragment with
      | none => cases stage <;> simp [PipelineSpec.LacksOnly, hvertex, hfragment, eq_comm]
      | some fragmentPath =>
          -- Nothing is lacking, and each of the three shaders is among the sources.
          refine iff_of_false ?_ ?_
          · have hv := compileStage_ne_missing tools c (hsources .vertex vertexPath hvertex) name
              .vertex pipeline stage
            dsimp only
            rcases hresult : compileStage tools c pack name vertexPath .vertex with ⟨_ | vertex, c₁⟩
            · rw [hresult] at hv
              simpa using hv
            have hf := compileStage_ne_missing tools c₁ (hsources .fragment fragmentPath hfragment)
              name .fragment pipeline stage
            dsimp only
            rcases hresult' : compileStage tools c₁ pack name fragmentPath .fragment with
              ⟨_ | fragment, c₂⟩
            · rw [hresult'] at hf
              simpa using hf
            have hg := compileGeometry_ne_missing tools c₂ (hsources .geometry) name pipeline stage
            dsimp only
            rcases hresult'' : compileGeometry tools c₂ pack name spec.geometry with
              ⟨_ | geometry, c₃⟩
            · rw [hresult''] at hg
              simpa using hg
            · exact fun heq => nomatch heq
          · cases stage <;> simp [PipelineSpec.LacksOnly, hvertex, hfragment]

/-- A pipeline that is refused for a missing shader of its own is refused before anything is
compiled. -/
theorem compilePipeline_of_lacksOnly (h : spec.LacksOnly stage) :
    (compilePipeline (η := η) tools c pack name spec).2 = c := by
  unfold compilePipeline
  cases stage with
  | vertex => simp only [h.1]
  | fragment =>
      obtain ⟨path, hpath⟩ := Option.isSome_iff_exists.1 h.1
      simp only [hpath, h.2]
  | geometry => cases h

/-- **What the check of a pack reports, and what it leaves to be reported.**

* A pack is accepted exactly when it is complete: it has a name, a version and a pipeline, every
  pipeline declares a vertex or a fragment shader, and every shader that one declares is among the
  sources.
* Otherwise the defect that is reported is the first one: of the name, the version, the pipelines as a
  whole, and then of each pipeline by ascending name, first that it has no shader to start from and then
  that one is missing, in stage order.
* When a pipeline of an accepted pack is built, by whatever tools and with whatever cache, it is refused
  for a missing shader exactly when it declares one of the vertex and the fragment shader and not the
  other, which is named then, and nothing is compiled.  No shader that it declares is missing. -/
theorem defects_and_missing_stages (pack : Pack) :
    (pack.check = .ok () ↔ pack.Complete) ∧
      (∀ defect, pack.check = .error defect ↔ PackDefect.First pack.Has defect) ∧
      (pack.check = .ok () → ∀ name spec, pack.pipelines.get? name = some spec →
        ∀ (tools : Toolchain) (c : Compiler),
          (∀ pipeline stage, (compilePipeline (η := η) tools c pack name spec).1 =
              .error (.missingStage pipeline stage) ↔ pipeline = name ∧ spec.LacksOnly stage) ∧
            (∀ stage, spec.LacksOnly stage →
              (compilePipeline (η := η) tools c pack name spec).2 = c) ∧
            ∀ stage path, spec.path? stage = some path → ∀ pipeline other,
              (compileStage tools c pack name path stage).1 ≠
                .error (.missingStage pipeline other)) := by
  refine ⟨Pack.check_eq_ok_iff, fun defect => Pack.check_eq_error_iff, ?_⟩
  intro hcheck name spec hspec tools c
  have hcomplete : pack.PipelineComplete spec :=
    (Pack.check_eq_ok_iff.1 hcheck).2.2.2 (name, spec) (mem_of_lookup hspec)
  exact ⟨compilePipeline_eq_missing_iff hcomplete, fun stage => compilePipeline_of_lacksOnly,
    fun stage path hpath => compileStage_ne_missing tools c (hcomplete.2 stage path hpath) name stage⟩

/-- A pack with a pipeline that lacks its fragment shader. -/
def lopsided : Pack :=
  (Pack.named "P" "1.0").withPipeline "half" { vertex := some "a.vsh" }
    |>.withPipeline "whole" { vertex := some "a.vsh", fragment := some "a.fsh" }
    |>.withSource "a.vsh" "" |>.withSource "a.fsh" ""

/-- The pack is accepted, and the pipeline is refused for the shader that it lacks.  With two defective
pipelines more, the one of the smaller name is reported, and of its two defects that it has no shader
to start from. -/
theorem defects_and_missing_stages_lopsided :
    let c : Compiler := { cache := { files := FileTree.empty, dir := "cache" }, maxDepth := 32 }
    let defective := (lopsided.withPipeline "bare" { geometry := some "b.gsh" }).withPipeline "lost"
      { vertex := some "b.vsh" }
    lopsided.check = .ok () ∧ lopsided.pipelines.get? "half" = some { vertex := some "a.vsh" } ∧
      compilePipeline (η := Nat) Compiler.echo c lopsided "half" { vertex := some "a.vsh" } =
        (.error (.missingStage "half" .fragment), c) ∧
      defective.check = .error (.noShaders "P" "bare") ∧
      defective.Has (.missingShader "P" "bare" .geometry "b.gsh") ∧
      (PackDefect.noShaders "P" "bare").Precedes
        (.missingShader "P" "bare" .geometry "b.gsh") := by
  intro c defective
  have hcheck : lopsided.check = .ok () := by decide +kernel
  have hspec : lopsided.pipelines.get? "half" = some { vertex := some "a.vsh" } := by
    decide +kernel
  have hlacks : PipelineSpec.LacksOnly { vertex := some "a.vsh" } .fragment := ⟨rfl, rfl⟩
  obtain ⟨-, -, hbuild⟩ := defects_and_missing_stages (η := Nat) lopsided
  obtain ⟨hmissing, hidle, -⟩ := hbuild hcheck "half" _ hspec Compiler.echo c
  have hdefective : defective.check = .error (.noShaders "P" "bare") := by decide +kernel
  have hbare : defective.pipelines.get? "bare" = some { geometry := some "b.gsh" } := by
    decide +kernel
  have hhas : defective.Has (.missingShader "P" "bare" .geometry "b.gsh") :=
    .pipeline hbare (.missingShader rfl (by decide +kernel))
  obtain ⟨-, hdefects, -⟩ := defects_and_missing_stages (η := Nat) defective
  exact ⟨hcheck, hspec, Prod.ext ((hmissing "half" .fragment).2 ⟨rfl, hlacks⟩) (hidle _ hlacks),
    hdefective, hhas, ((hdefects _).1 hdefective).2 _ hhas (by decide)⟩

end Engine

end Shaderworks
