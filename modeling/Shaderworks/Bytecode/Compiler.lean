/-
**Compiling with a cache.**

A shader is compiled in four steps: its includes are expanded, a legacy source is converted, the
cache is asked for the bytecode of what came out, and only if it has none is the compiler called.
Because the cache is asked for the final source, an edited include or another converter leads to
another entry.

Main definitions:

* `CompileJob` — a shader to compile;
* `Compiler` — the cache, the counters, and the bindings of the latest conversion by shader name;
* `Compiler.compile` — compiling a job.

Main results:

* `Compiler.compile_of_expand_error` — a shader whose includes cannot be expanded changes nothing.
-/

import Shaderworks.Bytecode.Artifact
import Shaderworks.Bytecode.Cache
import Shaderworks.Failure
import Shaderworks.Shader.Toolchain

set_option autoImplicit false

namespace Shaderworks

/-- A shader to compile. -/
structure CompileJob where
  /-- The texts that may be included. -/
  sources : Sources
  /-- The name of the shader. -/
  name : String
  /-- The source before its includes are expanded. -/
  source : String
  /-- The stage to compile for. -/
  stage : Stage
  /-- The version of the pack. -/
  version : String

/-- How often the cache had the bytecode, the compiler made it, and the compiler refused.  The
counters start again after two to the sixty-fourth. -/
structure CompileStats where
  /-- Jobs answered from the cache. -/
  cacheHits : UInt64 := 0
  /-- Jobs that were compiled. -/
  compiled : UInt64 := 0
  /-- Jobs that the compiler refused. -/
  failed : UInt64 := 0
  deriving DecidableEq

/-- A compiler with a cache in front of it. -/
structure Compiler where
  /-- The cache. -/
  cache : Cache
  /-- How deep includes may nest. -/
  maxDepth : Nat
  /-- The bindings of the latest conversion of each shader that was converted. -/
  metadata : Table String Bindings := Table.empty
  /-- The counters. -/
  stats : CompileStats := {}
  /-- The calls of the host's tools, in order. -/
  calls : List ToolCall := []

namespace Compiler

/-- The compiler after a source was prepared: the calls are noted, and the bindings of a
conversion. -/
def notePrepared (c : Compiler) (name : String) (prepared : Prepared) (calls : List ToolCall) :
    Compiler :=
  { c with
    metadata :=
      match prepared.bindings with
      | some bindings => c.metadata.put name bindings
      | none => c.metadata
    calls := c.calls ++ calls }

/-- The artifact of a job with its bytecode. -/
def artifact (job : CompileJob) (prepared : Prepared) (key : CacheKey) (bytecode : Bytes)
    (fromCache : Bool) : Artifact where
  name := job.name
  stage := job.stage
  bytecode := bytecode
  bindings := prepared.bindings
  key := key
  fromCache := fromCache

/-- Asks the cache for the bytecode of a prepared source, and if it has none, the compiler. -/
def compilePrepared (tools : Toolchain) (c : Compiler) (job : CompileJob) (prepared : Prepared) :
    Except Failure Artifact × Compiler :=
  let key := CacheKey.derive job.name prepared.source job.stage job.version
  match c.cache.get key with
  | (some bytecode, cache) =>
      (.ok (artifact job prepared key bytecode true),
        { c with cache, stats := { c.stats with cacheHits := c.stats.cacheHits + 1 } })
  | (none, _) =>
      let c := { c with calls := c.calls ++ [ToolCall.compile job.name job.stage prepared.source] }
      match tools.compile job.name job.stage prepared.source with
      | .error cause =>
          (.error (.compilation job.name job.stage cause),
            { c with stats := { c.stats with failed := c.stats.failed + 1 } })
      | .ok bytecode =>
          (.ok (artifact job prepared key bytecode false),
            { c with
              cache := c.cache.put key bytecode
              stats := { c.stats with compiled := c.stats.compiled + 1 } })

/-- Compiles a job. -/
def compile (tools : Toolchain) (c : Compiler) (job : CompileJob) :
    Except Failure Artifact × Compiler :=
  match Shader.expand job.sources c.maxDepth job.source job.name with
  | .error fault => (.error (.expansion fault), c)
  | .ok expanded =>
      let prepared := tools.prepare job.stage expanded
      compilePrepared tools
        (c.notePrepared job.name prepared (Toolchain.prepareCalls job.stage expanded)) job prepared

/-- A shader whose includes cannot be expanded changes nothing. -/
theorem compile_of_expand_error {tools : Toolchain} {c : Compiler} {job : CompileJob}
    {fault : Shader.IncludeFault}
    (h : Shader.expand job.sources c.maxDepth job.source job.name = .error fault) :
    c.compile tools job = (.error (.expansion fault), c) := by
  rw [compile, h]

end Compiler

end Shaderworks
