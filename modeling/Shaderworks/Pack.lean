/-
**Shader packs.**

A pack is a manifest together with the texts of its files.  The texts serve both as shaders and as
files to include.

Main definitions:

* `Pack` — packs;
* `Pack.named`, `Pack.withPipeline`, `Pack.withSource`, `Pack.withAuthor`, `Pack.withOrigin` — packs
  made piece by piece;
* `Pack.check` — the first defect of a pack.

Main results:

* `Pack.check_eq_ok_iff` — a pack is accepted exactly when it is complete.
-/

import Shaderworks.Files.Path
import Shaderworks.Pack.Defect
import Shaderworks.Pack.Manifest
import Shaderworks.Shader.Include

set_option autoImplicit false

namespace Shaderworks

/-- A shader pack. -/
structure Pack where
  /-- The manifest. -/
  manifest : Manifest
  /-- The texts of the files, by path. -/
  sources : Sources
  /-- The directory or archive that the pack was loaded from. -/
  origin : Option Path := none

namespace Pack

/-- The name of the pack. -/
def name (pack : Pack) : String := pack.manifest.name

/-- The version of the pack. -/
def version (pack : Pack) : String := pack.manifest.version

/-- The pipelines, by name. -/
def pipelines (pack : Pack) : NameMap PipelineSpec := pack.manifest.pipelines

/-- The text of a file. -/
def source? (pack : Pack) (path : String) : Option String := pack.sources.get? path

/-! ### Making packs -/

/-- A pack with a name and a version and nothing else. -/
def named (name version : String) : Pack where
  manifest := { name, version }
  sources := NameMap.empty

/-- The pack of a manifest text and some sources. -/
def ofJson (text : String) (sources : Sources) : Except Json.ReadError Pack :=
  (Manifest.ofJson text).map fun manifest => { manifest, sources }

/-- The pack with a pipeline put under a name. -/
def withPipeline (pack : Pack) (name : String) (spec : PipelineSpec) : Pack :=
  { pack with manifest :=
      { pack.manifest with pipelines := pack.manifest.pipelines.insert name spec } }

/-- The pack with a text put under a path. -/
def withSource (pack : Pack) (path text : String) : Pack :=
  { pack with sources := pack.sources.insert path text }

/-- The pack with an author. -/
def withAuthor (pack : Pack) (author : String) : Pack :=
  { pack with manifest := { pack.manifest with author := some author } }

/-- The pack with the place it comes from. -/
def withOrigin (pack : Pack) (origin : Path) : Pack := { pack with origin := some origin }

/-! ### Completeness -/

/-- The first defect of a pipeline: it has no shader to start from, or declares one that the pack
does not hold. -/
def checkPipeline (pack : Pack) (name : String) (spec : PipelineSpec) : Except PackDefect Unit :=
  if spec.vertex.isNone ∧ spec.fragment.isNone then .error (.noShaders pack.name name)
  else
    match spec.shaderPaths.find? fun p => (pack.source? p.2).isNone with
    | some (stage, path) => .error (.missingShader pack.name name stage path)
    | none => .ok ()

/-- The first defect of some pipelines. -/
def checkPipelines (pack : Pack) : List (String × PipelineSpec) → Except PackDefect Unit
  | [] => .ok ()
  | (name, spec) :: rest =>
      match pack.checkPipeline name spec with
      | .error defect => .error defect
      | .ok () => checkPipelines pack rest

/-- The first defect of a pack: of its name, its version, its pipelines as a whole, and then of each
pipeline by ascending name. -/
def check (pack : Pack) : Except PackDefect Unit :=
  if pack.name = "" then .error .missingName
  else if pack.version = "" then .error (.missingVersion pack.name)
  else if pack.pipelines.entries = [] then .error (.noPipelines pack.name)
  else pack.checkPipelines pack.pipelines.entries

/-- Whether a pipeline can be built from what a pack holds, as far as that shows without
compiling. -/
def PipelineComplete (pack : Pack) (spec : PipelineSpec) : Prop :=
  (spec.vertex.isSome ∨ spec.fragment.isSome) ∧
    ∀ stage path, spec.path? stage = some path → (pack.source? path).isSome

/-- Whether a pack has a name, a version, and pipelines that can all be built. -/
def Complete (pack : Pack) : Prop :=
  pack.name ≠ "" ∧ pack.version ≠ "" ∧ pack.pipelines.entries ≠ [] ∧
    ∀ p ∈ pack.pipelines.entries, pack.PipelineComplete p.2

theorem checkPipeline_eq_ok_iff {pack : Pack} {name : String} {spec : PipelineSpec} :
    pack.checkPipeline name spec = .ok () ↔ pack.PipelineComplete spec := by
  unfold checkPipeline PipelineComplete
  by_cases hnone : spec.vertex.isNone ∧ spec.fragment.isNone
  · rw [if_pos hnone]
    refine iff_of_false (by simp) fun h => ?_
    obtain ⟨hv, hf⟩ := hnone
    rw [Option.isNone_iff_eq_none] at hv hf
    simp [hv, hf] at h
  · rw [if_neg hnone]
    have hsome : spec.vertex.isSome = true ∨ spec.fragment.isSome = true := by
      cases hv : spec.vertex <;> cases hf : spec.fragment <;> simp_all
    cases hfind : spec.shaderPaths.find? fun p => (pack.source? p.2).isNone with
    | none =>
        refine iff_of_true rfl ⟨hsome, fun stage path hpath => ?_⟩
        have := List.find?_eq_none.1 hfind _ (PipelineSpec.mem_shaderPaths.2 hpath)
        cases hs : pack.source? path <;> simp_all
    | some p =>
        refine iff_of_false (by simp) fun h => ?_
        have hmem := PipelineSpec.mem_shaderPaths.1 (List.mem_of_find?_eq_some hfind)
        have hmiss := List.find?_some hfind
        have := h.2 p.1 p.2 hmem
        cases hs : pack.source? p.2 <;> simp_all

theorem checkPipelines_eq_ok_iff {pack : Pack} {pipelines : List (String × PipelineSpec)} :
    pack.checkPipelines pipelines = .ok () ↔ ∀ p ∈ pipelines, pack.PipelineComplete p.2 := by
  induction pipelines with
  | nil => simp [checkPipelines]
  | cons p rest ih =>
      rw [checkPipelines, List.forall_mem_cons, ← ih,
        ← @checkPipeline_eq_ok_iff pack p.1 p.2]
      cases pack.checkPipeline p.1 p.2 <;> simp

/-- **A pack is accepted exactly when it is complete.** -/
theorem check_eq_ok_iff {pack : Pack} : pack.check = .ok () ↔ pack.Complete := by
  unfold check Complete
  by_cases hn : pack.name = ""
  · simp [hn]
  · by_cases hv : pack.version = ""
    · simp [hn, hv]
    · by_cases hp : pack.pipelines.entries = []
      · simp [hn, hv, hp]
      · simp only [hn, hv, hp, if_false, ne_eq, not_false_eq_true, true_and]
        exact checkPipelines_eq_ok_iff

end Pack

end Shaderworks
