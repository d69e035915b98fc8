/-
**What a compile leaves behind when it fails, and what conversions leave behind.**

A compile notes the bindings of a conversion before it asks the cache, and counts after it called
the host's compiler, so each way of failing has a different part of the effects behind it.  The table
of bindings depends on the conversions alone: whether the compile that converted a source then found
its bytecode, made it or failed does not show in it, and neither does anything that happens to the
cache.

Main definitions:

* `CompileJob.converted?` — the bindings of a job whose source has to be converted and is;
* `CompilerEvent`, `Compiler.afterEvents` — compiles, and anything that may happen to the cache
  between them.

Main results:

* `Compiler.compile_of_expansion` — a job whose includes cannot be expanded changes nothing;
* `Compiler.compile_of_compilation` — a source that the compiler refuses;
* `Compiler.metadata_compile` — the table of bindings after a compile;
* `Compiler.failures_and_metadata` — **what failures leave, and what is in the table.**
-/

import Shaderworks.Proofs.Bytecode.Outcome
import Mathlib.Data.List.Induction

set_option autoImplicit false

namespace Shaderworks

/-- The bindings of a job whose expanded source is legacy and is converted. -/
def CompileJob.converted? (tools : Toolchain) (maxDepth : Nat) (job : CompileJob) :
    Option Bindings :=
  match Shader.expand job.sources maxDepth job.source job.name with
  | .error _ => none
  | .ok expanded =>
      if Dialect.ofSource expanded = .legacy then
        (tools.convert job.stage expanded).toOption.map Converted.bindings
      else none

/-- What may happen to a compiler, as far as its table of bindings is concerned. -/
inductive CompilerEvent where
  /-- A job is compiled, with the tools that the host has by then. -/
  | compile (tools : Toolchain) (job : CompileJob)
  /-- The cache becomes any other one: somebody empties it, writes to it or changes its files. -/
  | recache (cache : Cache)

/-- The bindings that an event has for the shader of a name. -/
def CompilerEvent.bindings? (maxDepth : Nat) (name : String) : CompilerEvent → Option Bindings
  | .compile tools job => if name = job.name then job.converted? tools maxDepth else none
  | .recache _ => none

/-- Preparing a source gives the bindings of its conversion. -/
theorem Toolchain.bindings_prepare (tools : Toolchain) (stage : Stage) (source : String) :
    (tools.prepare stage source).bindings =
      if Dialect.ofSource source = .legacy then
        (tools.convert stage source).toOption.map Converted.bindings
      else none := by
  unfold prepare
  cases Dialect.ofSource source with
  | native => rfl
  | legacy => cases tools.convert stage source <;> rfl

namespace Compiler

variable {tools : Toolchain} {c : Compiler} {job : CompileJob}

/-- The compiler after an event. -/
def afterEvent (c : Compiler) : CompilerEvent → Compiler
  | .compile tools job => (c.compile tools job).2
  | .recache cache => { c with cache }

/-- The compiler after several events. -/
def afterEvents (c : Compiler) (events : List CompilerEvent) : Compiler :=
  events.foldl afterEvent c

theorem afterEvents_concat (c : Compiler) (events : List CompilerEvent) (event : CompilerEvent) :
    c.afterEvents (events ++ [event]) = (c.afterEvents events).afterEvent event :=
  List.foldl_concat ..

/-- No event changes the limit of nesting. -/
theorem maxDepth_afterEvents (c : Compiler) (events : List CompilerEvent) :
    (c.afterEvents events).maxDepth = c.maxDepth := by
  induction events using List.reverseRecOn with
  | nil => rfl
  | append_singleton events event ih =>
      rw [afterEvents_concat]
      cases event with
      | compile tools job => exact (maxDepth_compile ..).trans ih
      | recache cache => exact ih

/-! ### Failures -/

/-- **A job whose includes cannot be expanded changes nothing.** -/
theorem compile_of_expansion {fault : Shader.IncludeFault}
    (h : (c.compile tools job).1 = .error (.expansion fault)) : (c.compile tools job).2 = c := by
  generalize hresult : c.compile tools job = result at h ⊢
  have houtcome := hresult ▸ outcome_compile tools c job
  cases houtcome with
  | unexpanded hexpand => rfl
  | cached hexpand hprepared hkey hfind => cases h
  | refused hexpand hprepared hkey hfind hcompile => cases h
  | compiled hexpand hprepared hkey hfind hcompile => cases h

/-- **The table of bindings after a compile:** only the name of the job may have other bindings,
those of its conversion. -/
theorem metadata_compile (tools : Toolchain) (c : Compiler) (job : CompileJob) (name : String) :
    (c.compile tools job).2.metadata.get? name =
      ((CompilerEvent.compile tools job).bindings? c.maxDepth name).or (c.metadata.get? name) := by
  -- Every compile of an expanded source has the table of the preparation.
  have hprepared : ∀ expanded,
      Shader.expand job.sources c.maxDepth job.source job.name = .ok expanded →
      (c.afterPreparing tools job expanded).metadata.get? name =
        ((CompilerEvent.compile tools job).bindings? c.maxDepth name).or
          (c.metadata.get? name) := by
    intro expanded hexpand
    have hbindings : job.converted? tools c.maxDepth =
        (tools.prepare job.stage expanded).bindings := by
      rw [CompileJob.converted?, hexpand, Toolchain.bindings_prepare]
    simp only [CompilerEvent.bindings?, hbindings, afterPreparing, notePrepared]
    cases (tools.prepare job.stage expanded).bindings with
    | none => rw [ite_self, Option.none_or]
    | some bindings =>
        rw [Table.get?_put]
        split <;> rfl
  generalize hresult : c.compile tools job = result
  have houtcome := hresult ▸ outcome_compile tools c job
  cases houtcome with
  | unexpanded hexpand => simp [CompilerEvent.bindings?, CompileJob.converted?, hexpand]
  | cached hexpand => exact hprepared _ hexpand
  | refused hexpand => exact hprepared _ hexpand
  | compiled hexpand => exact hprepared _ hexpand

/-- **A source that the compiler refuses** leaves the cache as it is and is counted. -/
theorem compile_of_compilation {name : String} {stage : Stage} {cause : Cause}
    (h : (c.compile tools job).1 = .error (.compilation name stage cause)) :
    (c.compile tools job).2.cache = c.cache ∧
      (c.compile tools job).2.stats = { c.stats with failed := c.stats.failed + 1 } := by
  generalize hresult : c.compile tools job = result at h ⊢
  have houtcome := hresult ▸ outcome_compile tools c job
  cases houtcome with
  | unexpanded hexpand => cases h
  | cached hexpand hprepared hkey hfind => cases h
  | refused hexpand hprepared hkey hfind hcompile => exact ⟨rfl, rfl⟩
  | compiled hexpand hprepared hkey hfind hcompile => cases h

/-! ### The table of bindings -/

/-- One event. -/
theorem metadata_afterEvent (c : Compiler) (event : CompilerEvent) (name : String) :
    (c.afterEvent event).metadata.get? name =
      (event.bindings? c.maxDepth name).or (c.metadata.get? name) := by
  cases event with
  | compile tools job => exact metadata_compile tools c job name
  | recache cache => rfl

/-- **After several events the table has, for each name, what the latest conversion gave.** -/
theorem metadata_afterEvents (c : Compiler) (events : List CompilerEvent) (name : String) :
    (c.afterEvents events).metadata.get? name =
      (events.reverse.findSome? (CompilerEvent.bindings? c.maxDepth name)).or
        (c.metadata.get? name) := by
  induction events using List.reverseRecOn with
  | nil => rfl
  | append_singleton events event ih =>
      rw [afterEvents_concat, metadata_afterEvent, maxDepth_afterEvents, ih, List.reverse_append,
        List.reverse_singleton, List.singleton_append, List.findSome?_cons]
      cases event.bindings? c.maxDepth name <;> rfl

/-- **What failures leave behind, and what is in the table of bindings.**

* After a compile that fails because of an include, the compiler is what it was: the cache, the
  counters and the table are, and no tool was called.
* After a compile that fails because the host's compiler refuses the source, the cache is what it
  was, one more failure is counted, and only the name of the job may have other bindings.
* After any events, the table of a new compiler has for each name the bindings of the latest compile
  under that name whose expanded source was legacy and was converted, if there was one. -/
theorem failures_and_metadata :
    (∀ (tools : Toolchain) (c : Compiler) (job : CompileJob),
      (∀ fault, (c.compile tools job).1 = .error (.expansion fault) →
        (c.compile tools job).2 = c) ∧
      ∀ name stage cause, (c.compile tools job).1 = .error (.compilation name stage cause) →
        (c.compile tools job).2.cache = c.cache ∧
          (c.compile tools job).2.stats = { c.stats with failed := c.stats.failed + 1 } ∧
          ∀ other, other ≠ job.name →
            (c.compile tools job).2.metadata.get? other = c.metadata.get? other) ∧
      ∀ (cache : Cache) (maxDepth : Nat) (events : List CompilerEvent) (name : String),
        (afterEvents { cache, maxDepth } events).metadata.get? name =
          events.reverse.findSome? (CompilerEvent.bindings? maxDepth name) := by
  refine ⟨fun tools c job => ⟨fun fault => compile_of_expansion, ?_⟩, ?_⟩
  · intro name stage cause hrefused
    obtain ⟨hcache, hstats⟩ := compile_of_compilation hrefused
    refine ⟨hcache, hstats, fun other hother => ?_⟩
    rw [metadata_compile]
    simp only [CompilerEvent.bindings?, if_neg hother, Option.none_or]
  · intro cache maxDepth events name
    exact (metadata_afterEvents _ events name).trans Option.or_none

/-- A legacy shader that is converted and then refused, and a shader of the same name that includes
an unknown file. -/
theorem failures_and_metadata_refused :
    let bindings : Bindings := { samplers := [⟨0, "noise"⟩] }
    let tools : Toolchain :=
      { convert := fun _ source => .ok ⟨source, bindings⟩
        compile := fun _ _ _ => .error { message := "no" } }
    let c : Compiler := { cache := { files := FileTree.empty, dir := "cache" }, maxDepth := 32 }
    let legacy : CompileJob := ⟨NameMap.empty, "sky", "uniform vec4 tint;\n", .fragment, "1.0"⟩
    let broken : CompileJob := ⟨NameMap.empty, "sky", "#include \"gone\"\n", .fragment, "1.0"⟩
    (c.compile tools legacy).1 = .error (.compilation "sky" .fragment { message := "no" }) ∧
      (c.compile tools legacy).2.stats = { failed := 1 } ∧
      (c.compile tools legacy).2.metadata.get? "sea" = none ∧
      (c.compile tools broken).1 = .error (.expansion (.notFound "gone" "sky" 1)) ∧
      (c.compile tools broken).2 = c ∧
      (c.afterEvents [.compile tools legacy, .recache c.cache.clear,
        .compile tools broken]).metadata.get? "sky" = some bindings := by
  intro bindings tools c legacy broken
  have hlegacy : (c.compile tools legacy).1 =
      .error (.compilation "sky" .fragment { message := "no" }) := by decide +kernel
  have hbroken : (c.compile tools broken).1 = .error (.expansion (.notFound "gone" "sky" 1)) := by
    decide +kernel
  obtain ⟨hfailures, hmetadata⟩ := failures_and_metadata
  obtain ⟨-, hstats, hothers⟩ := (hfailures tools c legacy).2 _ _ _ hlegacy
  have htable := hmetadata c.cache 32
    [.compile tools legacy, .recache c.cache.clear, .compile tools broken] "sky"
  refine ⟨hlegacy, hstats, hothers "sea" (by decide), hbroken,
    (hfailures tools c broken).1 _ hbroken, htable.trans ?_⟩
  decide +kernel

end Compiler

end Shaderworks
