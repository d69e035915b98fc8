/-
**The ways a compile can end.**

A job whose includes cannot be expanded ends at once.  Otherwise the cache has the bytecode of the
final source, or the compiler refuses that source, or it compiles it.  Each of the four endings says
what is answered and what the compiler is afterwards; nothing about a compile has to be read off its
definition after this.

Main definitions:

* `CompileJob.identity` — what the bytecode of a prepared job is filed under;
* `Compiler.finalIdentity?` — the same, if the includes of the job can be expanded;
* `Compiler.Outcome` — the four endings;
* `Compiler.answer` — the answer to a job, from what is found under its key.

Main results:

* `Compiler.outcome_compile` — every compile ends in one of them;
* `Compiler.maxDepth_compile` — no compile changes the limit of nesting;
* `Compiler.compile_fst` — the answer depends on the cache only through what it finds;
* `Compiler.find?_compile` — what is found after a job was answered with bytecode.
-/

import Shaderworks.Bytecode.Compiler
import Shaderworks.Proofs.Bytecode.Identity

set_option autoImplicit false

namespace Shaderworks

/-- What the bytecode of a job is filed under, once its source is prepared. -/
def CompileJob.identity (job : CompileJob) (prepared : Prepared) : ShaderIdentity where
  name := job.name
  source := prepared.source
  stage := job.stage
  version := job.version

namespace Compiler

/-- What the bytecode of a job is filed under, if its includes can be expanded. -/
def finalIdentity? (tools : Toolchain) (maxDepth : Nat) (job : CompileJob) :
    Option ShaderIdentity :=
  match Shader.expand job.sources maxDepth job.source job.name with
  | .error _ => none
  | .ok expanded => some (job.identity (tools.prepare job.stage expanded))

/-- The compiler once a job is prepared. -/
def afterPreparing (tools : Toolchain) (c : Compiler) (job : CompileJob) (expanded : String) :
    Compiler :=
  c.notePrepared job.name (tools.prepare job.stage expanded)
    (Toolchain.prepareCalls job.stage expanded)

/-- The compiler once the host's compiler was called for a job. -/
def afterCalling (tools : Toolchain) (c : Compiler) (job : CompileJob) (expanded : String) :
    Compiler :=
  let prepared := c.afterPreparing tools job expanded
  { prepared with
    calls := prepared.calls ++
      [.compile job.name job.stage (tools.prepare job.stage expanded).source] }

/-- The ways a compile can end: the answer, and the compiler afterwards. -/
inductive Outcome (tools : Toolchain) (c : Compiler) (job : CompileJob) :
    Except Failure Artifact × Compiler → Prop
  /-- The includes cannot be expanded. -/
  | unexpanded {fault : Shader.IncludeFault}
      (hexpand : Shader.expand job.sources c.maxDepth job.source job.name = .error fault) :
      Outcome tools c job (.error (.expansion fault), c)
  /-- The cache has the bytecode. -/
  | cached {expanded : String} {prepared : Prepared} {key : CacheKey} {bytecode : Bytes}
      (hexpand : Shader.expand job.sources c.maxDepth job.source job.name = .ok expanded)
      (hprepared : prepared = tools.prepare job.stage expanded)
      (hkey : key = (job.identity prepared).key)
      (hfind : c.cache.find? key = some bytecode) :
      Outcome tools c job
        (.ok (artifact job prepared key bytecode true),
          { c.afterPreparing tools job expanded with
            cache := (c.cache.get key).2
            stats := { c.stats with cacheHits := c.stats.cacheHits + 1 } })
  /-- The compiler refuses the source. -/
  | refused {expanded : String} {prepared : Prepared} {key : CacheKey} {cause : Cause}
      (hexpand : Shader.expand job.sources c.maxDepth job.source job.name = .ok expanded)
      (hprepared : prepared = tools.prepare job.stage expanded)
      (hkey : key = (job.identity prepared).key)
      (hfind : c.cache.find? key = none)
      (hcompile : tools.compile job.name job.stage prepared.source = .error cause) :
      Outcome tools c job
        (.error (.compilation job.name job.stage cause),
          { c.afterCalling tools job expanded with
            stats := { c.stats with failed := c.stats.failed + 1 } })
  /-- The compiler compiles the source. -/
  | compiled {expanded : String} {prepared : Prepared} {key : CacheKey} {bytecode : Bytes}
      (hexpand : Shader.expand job.sources c.maxDepth job.source job.name = .ok expanded)
      (hprepared : prepared = tools.prepare job.stage expanded)
      (hkey : key = (job.identity prepared).key)
      (hfind : c.cache.find? key = none)
      (hcompile : tools.compile job.name job.stage prepared.source = .ok bytecode) :
      Outcome tools c job
        (.ok (artifact job prepared key bytecode false),
          { c.afterCalling tools job expanded with
            cache := c.cache.put key bytecode
            stats := { c.stats with compiled := c.stats.compiled + 1 } })

variable {tools : Toolchain} {c : Compiler} {job : CompileJob}

/-- **Every compile ends in one of the four ways.** -/
theorem outcome_compile (tools : Toolchain) (c : Compiler) (job : CompileJob) :
    Outcome tools c job (c.compile tools job) := by
  cases hexpand : Shader.expand job.sources c.maxDepth job.source job.name with
  | error fault =>
      rw [compile_of_expand_error hexpand]
      exact .unexpanded hexpand
  | ok expanded =>
      have hsplit : c.compile tools job =
          compilePrepared tools (c.afterPreparing tools job expanded) job
            (tools.prepare job.stage expanded) := by
        simp only [compile, hexpand, afterPreparing]
      rw [hsplit, compilePrepared]
      have hfind := Cache.get_fst c.cache (job.identity (tools.prepare job.stage expanded)).key
      cases hget : c.cache.get (job.identity (tools.prepare job.stage expanded)).key with
      | mk answer cache =>
          rw [hget] at hfind
          -- Preparing does not touch the cache, so it answers as before.
          have hprepared : (c.afterPreparing tools job expanded).cache.get
              (CacheKey.derive job.name (tools.prepare job.stage expanded).source job.stage
                job.version) = (answer, cache) := hget
          simp only [hprepared]
          cases answer with
          | some bytecode =>
              have hcached : Outcome tools c job _ := .cached hexpand rfl rfl hfind.symm
              rwa [hget] at hcached
          | none =>
              cases hcompile : tools.compile job.name job.stage
                  (tools.prepare job.stage expanded).source with
              | error cause => exact .refused hexpand rfl rfl hfind.symm hcompile
              | ok bytecode => exact .compiled hexpand rfl rfl hfind.symm hcompile

/-- No compile changes the limit of nesting. -/
theorem maxDepth_compile (tools : Toolchain) (c : Compiler) (job : CompileJob) :
    (c.compile tools job).2.maxDepth = c.maxDepth := by
  generalize hresult : c.compile tools job = result
  have houtcome := hresult ▸ outcome_compile tools c job
  cases houtcome <;> rfl

/-! ### Answers -/

/-- The answer to a job, where `found` is what the cache has for each key. -/
def answer (tools : Toolchain) (maxDepth : Nat) (found : CacheKey → Option Bytes)
    (job : CompileJob) : Except Failure Artifact :=
  match Shader.expand job.sources maxDepth job.source job.name with
  | .error fault => .error (.expansion fault)
  | .ok expanded =>
      let prepared := tools.prepare job.stage expanded
      let key := (job.identity prepared).key
      match found key with
      | some bytecode => .ok (artifact job prepared key bytecode true)
      | none =>
          match tools.compile job.name job.stage prepared.source with
          | .error cause => .error (.compilation job.name job.stage cause)
          | .ok bytecode => .ok (artifact job prepared key bytecode false)

/-- The answer depends on the cache only through what it finds. -/
theorem compile_fst (tools : Toolchain) (c : Compiler) (job : CompileJob) :
    (c.compile tools job).1 = answer tools c.maxDepth c.cache.find? job := by
  generalize hresult : c.compile tools job = result
  have houtcome := hresult ▸ outcome_compile tools c job
  cases houtcome with
  | unexpanded hexpand => simp [answer, hexpand]
  | cached hexpand hprepared hkey hfind =>
      subst hprepared hkey
      simp [answer, hexpand, hfind]
  | refused hexpand hprepared hkey hfind hcompile =>
      subst hprepared hkey
      simp [answer, hexpand, hfind, hcompile]
  | compiled hexpand hprepared hkey hfind hcompile =>
      subst hprepared hkey
      simp [answer, hexpand, hfind, hcompile]

theorem finalIdentity?_of_expand {maxDepth : Nat} {expanded : String}
    (h : Shader.expand job.sources maxDepth job.source job.name = .ok expanded) :
    finalIdentity? tools maxDepth job = some (job.identity (tools.prepare job.stage expanded)) := by
  simp [finalIdentity?, h]

/-- A job that was answered with bytecode is found with it from then on, and every other key is
found as before. -/
theorem find?_compile {identity : ShaderIdentity} {first : Artifact}
    (hidentity : finalIdentity? tools c.maxDepth job = some identity)
    (hfirst : (c.compile tools job).1 = .ok first) (other : CacheKey) :
    (c.compile tools job).2.cache.find? other =
      if other = identity.key then some first.bytecode else c.cache.find? other := by
  generalize hresult : c.compile tools job = result at hfirst ⊢
  have houtcome := hresult ▸ outcome_compile tools c job
  cases houtcome with
  | unexpanded hexpand => cases hfirst
  | refused hexpand hprepared hkey hfind hcompile => cases hfirst
  | cached hexpand hprepared hkey hfind =>
      rw [finalIdentity?_of_expand hexpand, ← hprepared, Option.some.injEq] at hidentity
      cases hfirst
      rw [Cache.find?_get, ← hidentity, ← hkey]
      split
      · next ho => rw [ho, hfind]; rfl
      · rfl
  | compiled hexpand hprepared hkey hfind hcompile =>
      rw [finalIdentity?_of_expand hexpand, ← hprepared, Option.some.injEq] at hidentity
      cases hfirst
      rw [Cache.find?_put, ← hidentity, ← hkey]
      rfl

end Compiler

end Shaderworks
