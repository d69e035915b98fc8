/-
**Resource bindings.**

A shader written without explicit bindings gets them when it is converted.  The host needs to know
them when it builds a pipeline, so they travel beside the converted source.

Main definitions:

* `UniformField`, `UniformBuffer`, `Sampler` — the resources a shader expects;
* `Bindings` — the resources of one shader, or of several one after another.
-/

set_option autoImplicit false

namespace Shaderworks

/-- A member of a uniform block. -/
structure UniformField where
  /-- The name of the member. -/
  name : String
  /-- The name of its type. -/
  type : String
  deriving DecidableEq

/-- A uniform buffer that a shader expects at `binding`. -/
structure UniformBuffer where
  /-- The slot of the buffer. -/
  binding : UInt32
  /-- The name of the block. -/
  name : String
  /-- Its members, in order. -/
  fields : List UniformField
  deriving DecidableEq

/-- An image sampler that a shader expects at `binding`. -/
structure Sampler where
  /-- The slot of the sampler. -/
  binding : UInt32
  /-- The name of the sampler. -/
  name : String
  deriving DecidableEq

/-- The resources that shaders expect. -/
structure Bindings where
  /-- The uniform buffers, in order. -/
  uniformBuffers : List UniformBuffer := []
  /-- The samplers, in order. -/
  samplers : List Sampler := []
  deriving DecidableEq

namespace Bindings

/-- Whether no resource is expected. -/
def isEmpty (b : Bindings) : Bool := b.uniformBuffers.isEmpty && b.samplers.isEmpty

/-- The resources of one shader after those of another. -/
def append (a b : Bindings) : Bindings where
  uniformBuffers := a.uniformBuffers ++ b.uniformBuffers
  samplers := a.samplers ++ b.samplers

instance : Append Bindings := ⟨append⟩

/-- The resources of several shaders, one after another. -/
def join (parts : List Bindings) : Bindings := parts.foldr (· ++ ·) {}

end Bindings

end Shaderworks
