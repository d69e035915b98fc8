/-
**Compiled shaders.**

Main definitions:

* `Artifact` — the bytecode of one shader, and what the host needs to know about it.
-/

import Shaderworks.Bytecode.Key
import Shaderworks.Shader.Bindings

set_option autoImplicit false

namespace Shaderworks

/-- A compiled shader. -/
structure Artifact where
  /-- The name of the shader: its path in the pack. -/
  name : String
  /-- The stage it was compiled for. -/
  stage : Stage
  /-- The bytecode. -/
  bytecode : Bytes
  /-- Its bindings, if it was converted from the legacy dialect. -/
  bindings : Option Bindings
  /-- The key under which the bytecode is cached. -/
  key : CacheKey
  /-- Whether the bytecode was taken from the cache. -/
  fromCache : Bool
  deriving DecidableEq

namespace Artifact

/-- The size of the bytecode. -/
def size (artifact : Artifact) : Nat := artifact.bytecode.length

/-- Whether there is no bytecode. -/
def isEmpty (artifact : Artifact) : Bool := artifact.bytecode.isEmpty

end Artifact

end Shaderworks
