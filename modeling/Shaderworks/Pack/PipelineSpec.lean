/-
**Pipelines as a manifest describes them.**

Main definitions:

* `PipelineSpec` — the shaders and the render state that a manifest gives for one pipeline;
* `PipelineSpec.shaderPaths` — the shaders it declares, in stage order;
* `PipelineSpec.read`, `PipelineSpec.print` — the JSON form.

Main results:

* `PipelineSpec.mem_shaderPaths` — a path is listed under a stage exactly when it is declared for
  it.
-/

import Shaderworks.Json.Printing
import Shaderworks.Json.Reading
import Shaderworks.Pack.RenderState
import Shaderworks.Shader.Stage

set_option autoImplicit false

namespace Shaderworks

/-- A pipeline of a manifest. -/
structure PipelineSpec where
  /-- The path of the vertex shader. -/
  vertex : Option String := none
  /-- The path of the fragment shader. -/
  fragment : Option String := none
  /-- The path of the geometry shader. -/
  geometry : Option String := none
  /-- Files that are shipped to be included. -/
  includes : List String := []
  /-- How colours are blended. -/
  blend : BlendMode := .solid
  /-- Whether fragments are tested against the depth buffer. -/
  depthTest : Bool := true
  /-- Whether fragments are written to the depth buffer. -/
  depthWrite : Bool := true
  /-- Which faces are culled. -/
  cullFace : CullFace := .back
  /-- Where in the frame the pipeline runs. -/
  pass : Pass := .main
  /-- The vertex format of the host, if the pipeline names one. -/
  vertexFormat : Option String := none
  deriving DecidableEq

namespace PipelineSpec

/-- The path declared for a stage. -/
def path? (spec : PipelineSpec) : Stage → Option String
  | .vertex => spec.vertex
  | .fragment => spec.fragment
  | .geometry => spec.geometry

/-- The declared shaders, in stage order. -/
def shaderPaths (spec : PipelineSpec) : List (Stage × String) :=
  Stage.all.filterMap fun stage => (spec.path? stage).map fun path => (stage, path)

/-- A path is listed under a stage exactly when it is declared for it. -/
theorem mem_shaderPaths {spec : PipelineSpec} {stage : Stage} {path : String} :
    (stage, path) ∈ spec.shaderPaths ↔ spec.path? stage = some path := by
  simp only [shaderPaths, List.mem_filterMap, Option.map_eq_some_iff, Prod.mk.injEq]
  constructor
  · rintro ⟨_, _, _, h, rfl, rfl⟩
    exact h
  · intro h
    exact ⟨stage, Stage.mem_all stage, path, h, rfl, rfl⟩

/-! ### The JSON form -/

open Json

/-- A blend mode, by any word. -/
def readBlend : Reader BlendMode := fun node => (readText node).map BlendMode.ofWord

/-- A choice of faces, by any word. -/
def readCull : Reader CullFace := fun node => (readText node).map CullFace.ofWord

/-- A pass, by its word. -/
def readPass : Reader Pass := readWord Pass.main.word Pass.postProcess.word .main .postProcess

/-- The fields of a pipeline, in their order. -/
def fields : List (RecordField PipelineSpec) :=
  [.of "vertex" readOptional fun s v => { s with vertex := v },
    .of "fragment" readOptional fun s v => { s with fragment := v },
    .of "geometry" readOptional fun s v => { s with geometry := v },
    .of "includes" (readList readText) fun s v => { s with includes := v },
    .of "blend" readBlend fun s v => { s with blend := v },
    .of "depthTest" readBool fun s v => { s with depthTest := v },
    .of "depthWrite" readBool fun s v => { s with depthWrite := v },
    .of "cullFace" readCull fun s v => { s with cullFace := v },
    .of "stage" readPass fun s v => { s with pass := v },
    .of "vertexFormat" readOptional fun s v => { s with vertexFormat := v }]

/-- Reads a pipeline.  Members that are no fields are passed over. -/
def read : Reader PipelineSpec := readRecord "struct PipelineConfig" fields {}

/-- The pipeline that a text spells. -/
def ofJson (text : String) : Except ReadError PipelineSpec := readDocument read text

/-- The JSON form of a pipeline, with all its fields. -/
def print (spec : PipelineSpec) : List Char :=
  printObject
    [("vertex", printOptional spec.vertex), ("fragment", printOptional spec.fragment),
      ("geometry", printOptional spec.geometry),
      ("includes", printArray (spec.includes.map printText)),
      ("blend", printText spec.blend.word), ("depthTest", printBool spec.depthTest),
      ("depthWrite", printBool spec.depthWrite), ("cullFace", printText spec.cullFace.word),
      ("stage", printText spec.pass.word), ("vertexFormat", printOptional spec.vertexFormat)]

/-- The text of a pipeline. -/
def toJson (spec : PipelineSpec) : String := String.ofList spec.print

end PipelineSpec

end Shaderworks
