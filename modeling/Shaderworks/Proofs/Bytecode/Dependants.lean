/-
**What an edited file costs.**

A key is derived from the source with its includes expanded, and the expansion depends on the files
that the source reaches.  Any change of the other files leaves the key as it is, so a shader that was
compiled before the change is found in memory after it, whatever was compiled in between.

Main definitions:

* `Interlude` — what may happen between two compiles, short of emptying the memory;
* `Compiler.afterInterludes` — the compiler after several of these.

Main results:

* `Compiler.memory_compile` — a compile leaves what is in memory;
* `Compiler.memory_of_compile` — a shader that was answered with bytecode is in memory;
* `Compiler.compile_after_edit` — **a shader is answered from memory after a change of files that it
  does not reach.**
-/

import Shaderworks.Proofs.Bytecode.Outcome
import Shaderworks.Proofs.Shader.Agreement

set_option autoImplicit false

namespace Shaderworks

/-- What may happen to a compiler between two compiles.  Its memory is not emptied. -/
inductive Interlude where
  /-- A job is compiled, with whatever tools the host has by then. -/
  | compile (tools : Toolchain) (job : CompileJob)
  /-- The cache is asked for a key. -/
  | look (key : CacheKey)
  /-- Bytecode is put into the cache. -/
  | store (key : CacheKey) (bytecode : Bytes)
  /-- Somebody changes the files around the cache. -/
  | change (files : FileTree)

theorem Toolchain.prepare_congr {tools tools' : Toolchain}
    (hconvert : tools'.convert = tools.convert) (stage : Stage) (source : String) :
    tools'.prepare stage source = tools.prepare stage source := by
  unfold Toolchain.prepare
  rw [hconvert]

namespace Compiler

variable {tools tools' : Toolchain} {c : Compiler} {job : CompileJob} {key : CacheKey}
  {bytecode : Bytes}

/-- The compiler after what happened to it. -/
def afterInterlude (c : Compiler) : Interlude → Compiler
  | .compile tools job => (c.compile tools job).2
  | .look key => { c with cache := (c.cache.get key).2 }
  | .store key bytecode => { c with cache := c.cache.put key bytecode }
  | .change files => { c with cache := { c.cache with files := files } }

/-- The compiler after all that happened to it. -/
def afterInterludes (c : Compiler) (steps : List Interlude) : Compiler :=
  steps.foldl afterInterlude c

/-! ### What stays in memory -/

/-- A look-up leaves what is in memory. -/
theorem memory_look {cache : Cache} (h : cache.memory.get? key = some bytecode)
    (other : CacheKey) : (cache.get other).2.memory.get? key = some bytecode := by
  rw [Cache.memory_get]
  split
  · next heq => rw [← heq, Cache.find?_eq, h]; rfl
  · exact h

/-- **A compile leaves what is in memory.** -/
theorem memory_compile (h : c.cache.memory.get? key = some bytecode) :
    (c.compile tools job).2.cache.memory.get? key = some bytecode := by
  generalize hresult : c.compile tools job = result
  have houtcome := hresult ▸ outcome_compile tools c job
  cases houtcome with
  | unexpanded hexpand => exact h
  | cached hexpand hprepared hkey hfind => exact memory_look h _
  | refused hexpand hprepared hkey hfind hcompile => exact h
  | @compiled expanded prepared other bytecode' hexpand hprepared hkey hfind hcompile =>
      -- Nothing was found under the key that is put.
      have hne : key ≠ other := by
        rintro rfl
        rw [Cache.find?_eq, h] at hfind
        cases hfind
      have hput : (c.cache.put other bytecode').memory.get? key = some bytecode := by
        rw [Cache.put, Table.get?_put, if_neg hne]
        exact h
      exact hput

/-- **A shader that was answered with bytecode is in memory,** under the key of its final source. -/
theorem memory_of_compile {first : Artifact} (hfirst : (c.compile tools job).1 = .ok first) :
    (c.compile tools job).2.cache.memory.get? first.key = some first.bytecode ∧
      ∃ expanded, Shader.expand job.sources c.maxDepth job.source job.name = .ok expanded ∧
        first.key = (job.identity (tools.prepare job.stage expanded)).key ∧
        first.bindings = (tools.prepare job.stage expanded).bindings := by
  generalize hresult : c.compile tools job = result at hfirst ⊢
  have houtcome := hresult ▸ outcome_compile tools c job
  cases houtcome with
  | unexpanded hexpand => cases hfirst
  | refused hexpand hprepared hkey hfind hcompile => cases hfirst
  | cached hexpand hprepared hkey hfind =>
      cases hfirst
      subst hprepared hkey
      refine ⟨?_, _, hexpand, rfl, rfl⟩
      exact (Cache.memory_get _ _ _).trans ((if_pos rfl).trans hfind)
  | compiled hexpand hprepared hkey hfind hcompile =>
      cases hfirst
      subst hprepared hkey
      refine ⟨?_, _, hexpand, rfl, rfl⟩
      exact (Table.get?_put _ _ _ _).trans (if_pos rfl)

/-- A job is answered with bytecode if its includes can be expanded and the host's compiler takes
every source. -/
theorem compile_ok {expanded : String}
    (hexpand : Shader.expand job.sources c.maxDepth job.source job.name = .ok expanded)
    (htakes : ∀ source, ∃ bytecode, tools.compile job.name job.stage source = .ok bytecode) :
    ∃ first, (c.compile tools job).1 = .ok first := by
  rw [compile_fst, answer]
  obtain ⟨bytecode, hbytecode⟩ := htakes (tools.prepare job.stage expanded).source
  simp only [hexpand, hbytecode]
  split
  · exact ⟨_, rfl⟩
  · exact ⟨_, rfl⟩

/-- What is in memory stays there, unless something else is put under its key. -/
theorem memory_afterInterlude (h : c.cache.memory.get? key = some bytecode) (step : Interlude) :
    ∃ bytecode', (c.afterInterlude step).cache.memory.get? key = some bytecode' ∧
      (bytecode' = bytecode ∨ step = .store key bytecode') := by
  cases step with
  | compile tools job => exact ⟨bytecode, memory_compile h, .inl rfl⟩
  | look other => exact ⟨bytecode, memory_look h other, .inl rfl⟩
  | change files => exact ⟨bytecode, h, .inl rfl⟩
  | store other stored =>
      have hput : (c.afterInterlude (.store other stored)).cache.memory.get? key =
          if key = other then some stored else c.cache.memory.get? key :=
        Table.get?_put _ _ _ _
      by_cases heq : key = other
      · exact ⟨stored, by rw [hput, if_pos heq], .inr (by rw [heq])⟩
      · exact ⟨bytecode, by rw [hput, if_neg heq, h], .inl rfl⟩

/-- The same for all that happens. -/
theorem memory_afterInterludes (steps : List Interlude) :
    ∀ {c : Compiler} {bytecode : Bytes}, c.cache.memory.get? key = some bytecode →
      ∃ bytecode', (c.afterInterludes steps).cache.memory.get? key = some bytecode' ∧
        (bytecode' = bytecode ∨ .store key bytecode' ∈ steps) := by
  induction steps with
  | nil =>
      intro c bytecode h
      exact ⟨bytecode, h, .inl rfl⟩
  | cons step steps ih =>
      intro c bytecode h
      obtain ⟨mid, hmid, hstep⟩ := memory_afterInterlude h step
      obtain ⟨last, hlast, hsteps⟩ := ih hmid
      refine ⟨last, hlast, ?_⟩
      rcases hsteps with rfl | hmem
      · rcases hstep with rfl | rfl
        · exact .inl rfl
        · exact .inr List.mem_cons_self
      · exact .inr (List.mem_cons_of_mem _ hmem)

theorem maxDepth_afterInterludes (c : Compiler) (steps : List Interlude) :
    (c.afterInterludes steps).maxDepth = c.maxDepth := by
  induction steps generalizing c with
  | nil => rfl
  | cons step steps ih =>
      have hstep : (c.afterInterlude step).maxDepth = c.maxDepth := by
        cases step with
        | compile tools job => exact maxDepth_compile tools c job
        | look key => rfl
        | store key bytecode => rfl
        | change files => rfl
      exact (ih (c.afterInterlude step)).trans hstep

/-! ### Changes that a shader does not reach -/

/-- **A change of files that a shader does not reach costs nothing:** the source is expanded to the
same text or the same fault, so the key is the same; and if the shader was compiled before, it is
answered from memory.  The bytecode is the same too, unless some other was put under the key. -/
theorem compile_after_edit {sources' : Sources}
    (hagree : ∀ path, Shader.Reachable job.sources job.source path →
      sources'.get? path = job.sources.get? path)
    (hconvert : tools'.convert = tools.convert) :
    (∀ limit origin, Shader.expand sources' limit job.source origin =
        Shader.expand job.sources limit job.source origin) ∧
      (∀ limit, finalIdentity? tools' limit { job with sources := sources' } =
        finalIdentity? tools limit job) ∧
      ∀ (c : Compiler) (first : Artifact) (between : List Interlude),
        (c.compile tools job).1 = .ok first →
          ∃ second, (((c.compile tools job).2.afterInterludes between).compile tools'
              { job with sources := sources' }).1 = .ok second ∧
            second.fromCache = true ∧ second.key = first.key ∧
            second.bindings = first.bindings ∧
            (second.bytecode = first.bytecode ∨ .store first.key second.bytecode ∈ between) := by
  have hexpand := Shader.expand_congr hagree
  have hprepare := Toolchain.prepare_congr hconvert
  refine ⟨hexpand, fun limit => ?_, fun c first between hfirst => ?_⟩
  · simp only [finalIdentity?, hexpand, hprepare]
    rfl
  · obtain ⟨hmemory, expanded, hexpanded, hkey, hbindings⟩ := memory_of_compile hfirst
    obtain ⟨bytecode, hlast, hstored⟩ := memory_afterInterludes between hmemory
    refine ⟨artifact { job with sources := sources' } (tools.prepare job.stage expanded) first.key
      bytecode true, ?_, rfl, rfl, hbindings.symm, hstored⟩
    rw [compile_fst, maxDepth_afterInterludes, maxDepth_compile, answer]
    have hfind : ((c.compile tools job).2.afterInterludes between).cache.find?
        (job.identity (tools.prepare job.stage expanded)).key = some bytecode := by
      rw [Cache.find?_eq, ← hkey, hlast]
      rfl
    have hidentity : CompileJob.identity { job with sources := sources' }
        (tools.prepare job.stage expanded) = job.identity (tools.prepare job.stage expanded) := rfl
    simp only [hexpand, hexpanded, hprepare, hidentity, hfind, hkey]

/-- A shader with one include, compiled again after a file was removed and another added, with a
compile for another stage in between and the cache files gone. -/
theorem compile_after_edit_unreached :
    let tools : Toolchain :=
      { convert := fun _ source => .ok ⟨source, {}⟩
        compile := fun _ _ source => .ok (Bytes.ofText source) }
    let sources : Sources := NameMap.ofList [("a", "float a;\n"), ("z", "float z;\n")]
    let sources' : Sources := NameMap.ofList [("a", "float a;\n"), ("y", "#include \"x\"\n")]
    let source := "#include \"a\"\nvoid main() {}\n"
    let job : CompileJob := ⟨sources, "main", source, .vertex, "1.0"⟩
    let c : Compiler := { cache := { files := FileTree.empty, dir := "cache" }, maxDepth := 32 }
    let between : List Interlude :=
      [.compile tools { job with stage := .fragment }, .change FileTree.empty]
    (∀ path, Shader.Reachable sources source path → sources'.get? path = sources.get? path) ∧
      ∃ first second, (c.compile tools job).1 = .ok first ∧
        (((c.compile tools job).2.afterInterludes between).compile tools
          { job with sources := sources' }).1 = .ok second ∧
        second.fromCache = true ∧ second.bytecode = first.bytecode := by
  intro tools sources sources' source job c between
  have hreached : ∀ path, Shader.Reachable sources source path → path = "a" := by
    intro path hpath
    have hsource : Shader.includesOf source = ["a"] := by decide
    have hfile : Shader.includesOf "float a;\n" = [] := by decide
    induction hpath with
    | direct hpath =>
        rw [hsource] at hpath
        exact List.mem_singleton.1 hpath
    | nested hparent htext hpath ih =>
        have ha : sources.get? "a" = some "float a;\n" := by decide
        rw [ih, ha, Option.some.injEq] at htext
        rw [← htext, hfile] at hpath
        cases hpath
  have hagree : ∀ path, Shader.Reachable sources source path →
      sources'.get? path = sources.get? path := by
    intro path hpath
    rw [hreached path hpath]
    decide
  have hexpand : Shader.expand sources 32 source "main" =
      .ok "// BEGIN INCLUDE a\nfloat a;\n// END INCLUDE a\nvoid main() {}\n" := by
    decide +kernel
  obtain ⟨first, hfirst⟩ : ∃ first, (c.compile tools job).1 = .ok first :=
    compile_ok hexpand fun source => ⟨_, rfl⟩
  obtain ⟨second, hsecond, hcached, -, -, hsame⟩ :=
    (compile_after_edit hagree rfl).2.2 c first between hfirst
  have hbytecode : second.bytecode = first.bytecode := hsame.resolve_right (by simp [between])
  exact ⟨hagree, first, second, hfirst, hsecond, hcached, hbytecode⟩

end Compiler

end Shaderworks
