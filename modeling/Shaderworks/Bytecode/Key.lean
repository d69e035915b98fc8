/-
**Cache keys.**

Compiled bytecode is filed under a digest of the shader's name, the source that the compiler saw,
the stage and the version of the pack.  Editing an include or changing the converter changes the
source, hence the key.

Main definitions:

* `CacheKey` — thirty-two bytes;
* `CacheKey.preimage` — the bytes that are digested: the four components one after another;
* `CacheKey.derive` — the key of a shader;
* `CacheKey.hex` — the key as a file name needs it.

Main results:

* `CacheKey.hex_inj` — different keys have different names.
-/

import Shaderworks.Digest.Sha256
import Shaderworks.Shader.Stage

set_option autoImplicit false

namespace Shaderworks

/-- The name under which bytecode is filed. -/
structure CacheKey where
  /-- The bytes of the key. -/
  bytes : Bytes
  /-- There are thirty-two of them. -/
  length_eq : bytes.length = 32
  deriving DecidableEq

namespace CacheKey

/-- The bytes that are digested: name, source, tag of the stage and version, one after another. -/
def preimage (name source : String) (stage : Stage) (version : String) : Bytes :=
  Bytes.ofText name ++ Bytes.ofText source ++ Bytes.ofText stage.tag ++ Bytes.ofText version

/-- The key of a shader, from its name, the source that is compiled, its stage and the version of
its pack. -/
def derive (name source : String) (stage : Stage) (version : String) : CacheKey :=
  ⟨Sha256.digest (preimage name source stage version), Sha256.length_digest _⟩

/-- The key with these bytes, if there are thirty-two. -/
def ofBytes? (bytes : Bytes) : Option CacheKey :=
  if h : bytes.length = 32 then some ⟨bytes, h⟩ else none

/-- The key in lower-case hexadecimal digits. -/
def hex (key : CacheKey) : String := Bytes.hex key.bytes

/-- The key as a value shows it. -/
def shown (key : CacheKey) : String := "CacheKey(" ++ key.hex ++ ")"

theorem eq_of_bytes_eq {j k : CacheKey} (h : j.bytes = k.bytes) : j = k := by
  cases j; cases k; cases h; rfl

/-- Different keys have different names. -/
theorem hex_inj {j k : CacheKey} : j.hex = k.hex ↔ j = k :=
  ⟨fun h => eq_of_bytes_eq (Bytes.hex_injective h), fun h => h ▸ rfl⟩

end CacheKey

end Shaderworks
