/-
**Draw state.**

The render state of a manifest entry, in the terms in which a host sets it.

Main definitions:

* `DrawState` — blending, depth, culling and the rest;
* `DrawState.ofSpec` — the draw state that a pipeline of a manifest asks for.
-/

import Shaderworks.Pack.PipelineSpec

set_option autoImplicit false

namespace Shaderworks

/-- What a colour is multiplied by before it is blended. -/
inductive BlendFactor where
  /-- Nothing. -/
  | one
  /-- Zero. -/
  | zero
  /-- The colour that is there. -/
  | dst
  /-- The alpha of the new colour. -/
  | srcAlpha
  /-- What the alpha of the new colour leaves. -/
  | oneMinusSrcAlpha
  deriving DecidableEq

/-- How two colours are joined. -/
inductive BlendOperation where
  /-- They are added. -/
  | add
  deriving DecidableEq

/-- Blending of the colour or the alpha channel. -/
structure BlendComponent where
  /-- What the new colour is multiplied by. -/
  source : BlendFactor
  /-- What the colour that is there is multiplied by. -/
  destination : BlendFactor
  /-- How the two are joined. -/
  operation : BlendOperation := .add
  deriving DecidableEq

/-- Blending of both channels. -/
structure BlendState where
  /-- Blending of the colour. -/
  color : BlendComponent
  /-- Blending of the alpha. -/
  alpha : BlendComponent
  deriving DecidableEq

/-- The new colour laid over the one that is there. -/
def BlendComponent.over : BlendComponent := { source := .one, destination := .oneMinusSrcAlpha }

/-- Which depths pass the depth test. -/
inductive DepthCompare where
  /-- Those that are not behind. -/
  | lessEqual
  /-- All. -/
  | always
  deriving DecidableEq

/-- A face of a primitive. -/
inductive Face where
  /-- The front. -/
  | front
  /-- The back. -/
  | back
  deriving DecidableEq

/-- The state that a host draws with. -/
structure DrawState where
  /-- Blending, if there is any. -/
  blend : Option BlendState
  /-- Which depths pass. -/
  depthCompare : DepthCompare
  /-- Whether depths are written. -/
  depthWrite : Bool
  /-- The face that is culled, if one is. -/
  cullMode : Option Face
  /-- Whether the fragment shader discards by alpha. -/
  alphaTest : Bool
  /-- Where in the frame the pipeline runs. -/
  pass : Pass
  /-- The vertex format, if the pipeline names one. -/
  vertexFormat : Option String
  deriving DecidableEq

/-- The blending of a mode. -/
def BlendMode.state? : BlendMode → Option BlendState
  | solid => none
  | cutout => none
  | translucent =>
      some { color := { source := .srcAlpha, destination := .oneMinusSrcAlpha }, alpha := .over }
  | add => some { color := { source := .one, destination := .one }, alpha := .over }
  | multiply => some { color := { source := .dst, destination := .zero }, alpha := .over }

/-- The face of a choice. -/
def CullFace.face? : CullFace → Option Face
  | none => Option.none
  | front => some .front
  | back => some .back

namespace DrawState

/-- The draw state that a pipeline of a manifest asks for. -/
def ofSpec (spec : PipelineSpec) : DrawState where
  blend := spec.blend.state?
  depthCompare := if spec.depthTest then .lessEqual else .always
  depthWrite := spec.depthWrite
  cullMode := spec.cullFace.face?
  alphaTest := spec.blend == .cutout
  pass := spec.pass
  vertexFormat := spec.vertexFormat

/-- Whether what lies behind shows through. -/
def isTranslucent (state : DrawState) : Bool := state.blend.isSome

end DrawState

end Shaderworks
