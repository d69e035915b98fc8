/-
**The host's shader tools.**

Two tools belong to the host: a converter from the legacy dialect to the native one, and a compiler
from native sources to bytecode.  Both may fail.  A failed conversion is not the end: the source
then goes to the compiler as it is.

Main definitions:

* `Converted` — a converted source and the bindings it was given;
* `Toolchain` — the two tools, as functions of what they are handed;
* `ToolCall` — a call of one of them;
* `Toolchain.prepare` — the source that is compiled, and its bindings if it was converted.

Main results:

* `Toolchain.prepare_of_native` — a native source is compiled as it is.
-/

import Shaderworks.Data.Bytes
import Shaderworks.Data.Cause
import Shaderworks.Shader.Bindings
import Shaderworks.Shader.Dialect
import Shaderworks.Shader.Stage

set_option autoImplicit false

namespace Shaderworks

/-- A source in the native dialect, with the bindings it was given. -/
structure Converted where
  /-- The converted source. -/
  source : String
  /-- The resources it expects. -/
  bindings : Bindings
  deriving DecidableEq

/-- The shader tools of a host. -/
structure Toolchain where
  /-- Converts a legacy source of some stage. -/
  convert : Stage → String → Except Cause Converted
  /-- Compiles the source of the shader with this name. -/
  compile : (name : String) → Stage → (source : String) → Except Cause Bytes

/-- A call of a tool. -/
inductive ToolCall where
  /-- The converter was handed a source. -/
  | convert (stage : Stage) (source : String)
  /-- The compiler was handed a source. -/
  | compile (name : String) (stage : Stage) (source : String)
  deriving DecidableEq

/-- A source ready for the compiler. -/
structure Prepared where
  /-- The source to compile. -/
  source : String
  /-- Its bindings, if it was converted. -/
  bindings : Option Bindings
  deriving DecidableEq

/-- Why a host without a converter refuses a legacy source. -/
def noConversion (stage : Stage) : Cause where
  message := "legacy " ++ stage.label ++ " shaders are not supported by this host"

namespace Toolchain

/-- The source that is compiled: a legacy one is converted, and stays as it is if that fails. -/
def prepare (tools : Toolchain) (stage : Stage) (source : String) : Prepared :=
  match Dialect.ofSource source with
  | .native => ⟨source, none⟩
  | .legacy =>
      match tools.convert stage source with
      | .ok converted => ⟨converted.source, some converted.bindings⟩
      | .error _ => ⟨source, none⟩

/-- The calls that preparing a source makes. -/
def prepareCalls (stage : Stage) (source : String) : List ToolCall :=
  match Dialect.ofSource source with
  | .native => []
  | .legacy => [.convert stage source]

theorem prepare_of_native {tools : Toolchain} {stage : Stage} {source : String}
    (h : Dialect.ofSource source = .native) : tools.prepare stage source = ⟨source, none⟩ := by
  rw [prepare, h]

end Toolchain

end Shaderworks
