/-
**Custom pipelines.**

A pipeline of a pack is compiled and waits until the host has a template to build it from.  Once
built it holds a handle of the host, which is given back when the pipeline is disposed of.  A
pipeline that could not be built waits on; one that was disposed of is never built again.

Main definitions:

* `Phase` — waiting, built, disposed of;
* `Pipeline` — a compiled pipeline and its phase;
* `BuildRequest`, `Pipeline.request` — what the host is handed to build from;
* `HostEvent` — what the host was made to build or to release;
* `Pipeline.build`, `Pipeline.dispose` — the two steps, with what they make the host do.

Main results:

* `Pipeline.build_of_not_waiting` — only a waiting pipeline is built;
* `Pipeline.handle?_dispose` — no handle is left after disposal.
-/

import Shaderworks.Bytecode.Artifact
import Shaderworks.Failure
import Shaderworks.Pack
import Shaderworks.Pipeline.DrawState

set_option autoImplicit false

namespace Shaderworks

/-- Where a pipeline stands between registration and disposal; `η` is the type of handles. -/
inductive Phase (η : Type) where
  /-- It waits for a template. -/
  | waiting
  /-- It was built and holds a handle. -/
  | built (handle : η)
  /-- It was disposed of. -/
  | disposed
  deriving DecidableEq

/-- A compiled pipeline of a pack. -/
structure Pipeline (η : Type) where
  /-- The name of the pipeline. -/
  name : String
  /-- The pack it belongs to. -/
  pack : Pack
  /-- The vertex shader. -/
  vertex : Artifact
  /-- The fragment shader. -/
  fragment : Artifact
  /-- The geometry shader, if there is one. -/
  geometry : Option Artifact
  /-- The state to draw with. -/
  drawState : DrawState
  /-- Where it stands. -/
  phase : Phase η := .waiting

/-- What the host is handed to build a pipeline from; `τ` is the type of templates. -/
structure BuildRequest (τ : Type) where
  /-- The host's own pipeline. -/
  template : τ
  /-- The name of the pipeline. -/
  name : String
  /-- The vertex format; without one the template's is used. -/
  vertexFormat : Option String
  /-- The bytecode of the vertex shader. -/
  vertex : Bytes
  /-- The bytecode of the fragment shader. -/
  fragment : Bytes
  /-- The bytecode of the geometry shader, if there is one. -/
  geometry : Option Bytes
  /-- The bindings of the converted shaders, in stage order. -/
  bindings : Bindings
  /-- The state to draw with. -/
  drawState : DrawState

/-- What the host was made to do. -/
inductive HostEvent (τ η : Type) where
  /-- It built a pipeline and gave a handle. -/
  | built (request : BuildRequest τ) (handle : η)
  /-- It released a handle. -/
  | released (handle : η)

namespace Pipeline

variable {τ η : Type}

/-- The compiled shaders, in stage order. -/
def artifacts (p : Pipeline η) : List Artifact := [p.vertex, p.fragment] ++ p.geometry.toList

/-- The bindings of the converted shaders, in stage order. -/
def bindings (p : Pipeline η) : Bindings := Bindings.join (p.artifacts.filterMap Artifact.bindings)

/-- What the host is handed to build the pipeline from. -/
def request (p : Pipeline η) (template : τ) : BuildRequest τ where
  template := template
  name := p.name
  vertexFormat := p.drawState.vertexFormat
  vertex := p.vertex.bytecode
  fragment := p.fragment.bytecode
  geometry := p.geometry.map Artifact.bytecode
  bindings := p.bindings
  drawState := p.drawState

/-- The handle that the pipeline holds. -/
def handle? (p : Pipeline η) : Option η :=
  match p.phase with
  | .built handle => some handle
  | _ => none

/-- Whether the pipeline was built and not disposed of. -/
def isBuilt (p : Pipeline η) : Bool := p.handle?.isSome

/-- Whether the pipeline waits for a template. -/
def isWaiting (p : Pipeline η) : Bool :=
  match p.phase with
  | .waiting => true
  | _ => false

/-- Builds a waiting pipeline; `answer` is what the host answers to a request.  If the host fails,
the pipeline stays as it is. -/
def build (p : Pipeline η) (answer : BuildRequest τ → Except Cause η) (template : τ) :
    Except Failure (Pipeline η × List (HostEvent τ η)) :=
  match p.phase with
  | .waiting =>
      match answer (p.request template) with
      | .error cause => .error (.pipelineBuild p.name cause)
      | .ok handle =>
          .ok ({ p with phase := .built handle }, [.built (p.request template) handle])
  | _ => .ok (p, [])

/-- Disposes of a pipeline; a handle it holds is released. -/
def dispose (p : Pipeline η) : Pipeline η × List (HostEvent τ η) :=
  ({ p with phase := .disposed }, (p.handle?.map HostEvent.released).toList)

/-- Only a waiting pipeline is built. -/
theorem build_of_not_waiting {p : Pipeline η} (h : p.isWaiting = false)
    (answer : BuildRequest τ → Except Cause η) (template : τ) :
    p.build answer template = .ok (p, []) := by
  unfold isWaiting at h
  unfold build
  split
  · next hp => simp [hp] at h
  · rfl

/-- No handle is left after disposal. -/
theorem handle?_dispose (p : Pipeline η) : (p.dispose (τ := τ)).1.handle? = none := rfl

end Pipeline

end Shaderworks
