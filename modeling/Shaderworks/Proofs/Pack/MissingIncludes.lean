/-
**Only what was absent is missing.**

The includes of a pack are followed twice.  Loading follows them breadth first, over a queue, from
all paths that the manifest declares.  Compiling a shader follows them depth first, from its source
alone, and looks only at what loading has kept.

Both see the same directives.  What an expansion comes to is reachable from a declared path through
texts of the pack, so it is among the needed paths, and loading has asked for all of these.  If it
has no text in the pack, then none was there.

Main results:

* `Shader.reachable_of_notFound` — an expansion misses only paths that its source reaches;
* `Collects.needed_of_reachable` — what a declared shader reaches is needed;
* `loadPack_notFound` — **a shader of a loaded pack misses only what loading found absent.**
-/

import Shaderworks.Engine
import Shaderworks.Proofs.Pack.Closure
import Shaderworks.Proofs.Shader.Descent

set_option autoImplicit false

namespace Shaderworks

/-! ### What an expansion misses -/

/-- An expansion misses only paths that its source reaches and that have no text. -/
theorem Shader.reachable_of_notFound {sources : Sources} {limit line : Nat}
    {source origin path file : String}
    (h : expand sources limit source origin = .error (.notFound path file line)) :
    Reachable sources source path ∧ sources.get? path = none := by
  obtain ⟨chain, file', ls, hdescent, -, ⟨hfault, -⟩ | ⟨k, path', hfault, hasks, hnone⟩⟩ :=
    descent_of_expand h
  · cases hfault
  · cases hfault
    refine ⟨?_, hnone⟩
    have hincl := inclusive_reachable sources source
    rcases hdescent.reaches hincl fun p hp => .direct hp with
      ⟨-, rfl⟩ | ⟨text, hfile, htext, rfl⟩
    · exact .direct hasks.mem_asked
    · exact hincl _ _ hfile htext _ hasks.mem_asked

/-- A stage misses an include only if the expansion of its source does. -/
theorem Engine.expand_of_compileStage {tools : Toolchain} {c : Compiler} {pack : Pack}
    {pipeline path : String} {stage : Stage} {fault : Shader.IncludeFault}
    (h : (compileStage tools c pack pipeline path stage).1 = .error (.expansion fault)) :
    ∃ text, pack.source? path = some text ∧
      Shader.expand pack.sources c.maxDepth text path = .error fault := by
  unfold compileStage at h
  split at h
  · cases h
  · next text htext =>
      refine ⟨text, htext, ?_⟩
      unfold Compiler.compile at h
      dsimp only at h
      split at h
      · next fault' hfault =>
          cases h
          exact hfault
      · unfold Compiler.compilePrepared at h
        dsimp only at h
        repeat' split at h
        all_goals cases h

/-! ### What a declared shader reaches -/

/-- A pipeline of the pack declares a path as a shader. -/
def Pack.Declares (pack : Pack) (path : String) : Prop :=
  ∃ pipeline spec stage, pack.pipelines.get? pipeline = some spec ∧ spec.path? stage = some path

theorem Pack.Declares.mem_paths {pack : Pack} {path : String} (h : pack.Declares path) :
    path ∈ pack.manifest.paths := by
  obtain ⟨pipeline, spec, stage, hspec, hpath⟩ := h
  refine List.mem_flatMap.2 ⟨spec, ?_, List.mem_append_left _ ?_⟩
  · exact List.mem_map.2 ⟨(pipeline, spec), mem_of_lookup hspec, rfl⟩
  · exact List.mem_map.2 ⟨(stage, path), PipelineSpec.mem_shaderPaths.2 hpath, rfl⟩

namespace Collects

variable {files : PackFiles} {declared order : List String} {sources : Sources}

/-- What a needed path with a text reaches is needed. -/
theorem needed_of_reachable
    (h : Collects files declared NameMap.empty [] order (.ok sources)) {path text : String}
    (hpath : Needed files declared path) (htext : sources.get? path = some text) {reached : String}
    (hreached : Shader.Reachable sources text reached) : Needed files declared reached := by
  have hkept : ∀ file text, sources.get? file = some text → files.text? file = some text :=
    fun file text hfile => PackFiles.text?_eq_some_iff.2 ((h.get?_eq_some_iff file text).1 hfile).2
  induction hreached with
  | direct hasked => exact .included hpath (hkept _ _ htext) hasked
  | nested _ hfile hasked ih => exact .included ih (hkept _ _ hfile) hasked

/-- A needed path without a text among those kept has been found absent. -/
theorem absent_of_needed (h : Collects files declared NameMap.empty [] order (.ok sources))
    {path : String} (hpath : Needed files declared path) (hnone : sources.get? path = none) :
    path ∈ order ∧ files.read path = .ok none := by
  have hmem : path ∈ order := (h.breadthFirst.mem_iff path).2 hpath
  obtain ⟨answer, hread⟩ := h.answers rfl path hmem
  have htext := h.get?_eq rfl path
  rw [if_pos hmem, hnone, PackFiles.text?_of_read hread] at htext
  subst htext
  exact ⟨hmem, hread⟩

end Collects

/-- **A shader of a loaded pack misses only what loading has asked for and found absent,** whatever
the limit of nesting; so if nothing was absent, no stage misses an include. -/
theorem loadPack_notFound {files : PackFiles} {name : String} {pack : Pack} {asked : List String}
    (h : loadPack name files = ⟨.ok pack, asked⟩) :
    (∀ path text, pack.Declares path → pack.source? path = some text →
      ∀ limit origin missing file line,
        Shader.expand pack.sources limit text origin = .error (.notFound missing file line) →
          missing ∈ asked ∧ files.read missing = .ok none) ∧
      ((∀ path ∈ asked, files.read path ≠ .ok none) →
        ∀ pipeline spec stage path, pack.pipelines.get? pipeline = some spec →
          spec.path? stage = some path → ∀ tools c missing file line,
            (Engine.compileStage tools c pack pipeline path stage).1 ≠
              .error (.expansion (.notFound missing file line))) := by
  obtain ⟨order, rfl, hrun⟩ := collects_of_loadPack h
  have hmissing : ∀ path text, pack.Declares path → pack.source? path = some text →
      ∀ limit origin missing file line,
        Shader.expand pack.sources limit text origin = .error (.notFound missing file line) →
          missing ∈ name :: order ∧ files.read missing = .ok none := by
    intro path text hdeclared htext limit origin missing file line hexpand
    obtain ⟨hreached, hnone⟩ := Shader.reachable_of_notFound hexpand
    have hneeded := hrun.needed_of_reachable (.declared hdeclared.mem_paths) htext hreached
    obtain ⟨hmem, habsent⟩ := hrun.absent_of_needed hneeded hnone
    exact ⟨List.mem_cons_of_mem _ hmem, habsent⟩
  refine ⟨hmissing, ?_⟩
  intro hall pipeline spec stage path hspec hpath tools c missing file line hc
  obtain ⟨text, htext, hexpand⟩ := Engine.expand_of_compileStage hc
  obtain ⟨hmem, habsent⟩ :=
    hmissing path text ⟨pipeline, spec, stage, hspec, hpath⟩ htext _ _ _ _ _ hexpand
  exact hall missing hmem habsent

/-- The shader of two files that ask for each other misses the third file, which loading has found
absent. -/
theorem loadPack_notFound_circle :
    ∃ pack asked, loadPack "pack.json" (circle []) = ⟨.ok pack, asked⟩ ∧
      ∃ text, pack.Declares "a.vsh" ∧ pack.source? "a.vsh" = some text ∧
        Shader.expand pack.sources 8 text "a.vsh" = .error (.notFound "gone.glsl" "a.vsh" 2) ∧
        "gone.glsl" ∈ asked ∧ (circle []).read "gone.glsl" = .ok none := by
  let text := "#include \"b.glsl\"\n#include \"gone.glsl\"\n"
  have hresult : (loadPack "pack.json" (circle [])).result.toOption.map (fun pack =>
      ((pack.pipelines.get? "p").bind PipelineSpec.vertex, pack.source? "a.vsh",
        Shader.expand pack.sources 8 text "a.vsh")) =
      some (some "a.vsh", some text, .error (.notFound "gone.glsl" "a.vsh" 2)) := by
    decide +kernel
  rcases hload : loadPack "pack.json" (circle []) with ⟨failure | pack, asked⟩
  · rw [hload] at hresult
    cases hresult
  · rw [hload] at hresult
    obtain ⟨hvertex, hsource, hexpand⟩ : _ ∧ _ ∧ _ := by
      simpa only [Except.toOption, Option.map_some, Option.some.injEq, Prod.mk.injEq] using hresult
    obtain ⟨spec, hspec, hpath⟩ := Option.bind_eq_some_iff.1 hvertex
    have hdeclared : pack.Declares "a.vsh" := ⟨"p", spec, .vertex, hspec, hpath⟩
    have hmissing := (loadPack_notFound hload).1 "a.vsh" text hdeclared hsource 8 "a.vsh"
      "gone.glsl" "a.vsh" 2 hexpand
    exact ⟨pack, asked, rfl, text, hdeclared, hsource, hexpand, hmissing⟩

end Shaderworks
