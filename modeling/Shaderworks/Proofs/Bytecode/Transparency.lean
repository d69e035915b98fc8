/-
**The cache does not show in the answers.**

Every entry of a cache that started without entries was put there by the compiler, for some job of
the history, and is what the host's compiler makes of that job.  So whoever finds an entry gets what
the compiler would have made, as long as no two different shaders of the history share a key.

Main definitions:

* `Compiler.finalSource`, `Compiler.uncached` — the source that is compiled for a job, and the
  answer to the job, without any cache;
* `Compiler.MadeFor` — bytecode under a key is what some job of a list compiles to;
* `Compiler.KeysApart` — different shaders of a list of jobs have different keys.

Main results:

* `Compiler.holds_madeFor_compile` — compiling keeps the entries what the compiler makes;
* `Compiler.answers_eq_uncached` — **every answer of a history is the answer without a cache**, up
  to the flag that tells where the bytecode was taken from.
-/

import Shaderworks.Proofs.Bytecode.History

set_option autoImplicit false

namespace Shaderworks

/-- The artifact as if it came straight from the compiler. -/
def Artifact.asCompiled (artifact : Artifact) : Artifact := { artifact with fromCache := false }

namespace Compiler

/-- The source that is compiled and its bindings: those of the converter for a legacy source that it
converts, else the source as it is without bindings. -/
def finalSource (tools : Toolchain) (stage : Stage) (expanded : String) :
    String × Option Bindings :=
  if Dialect.ofSource expanded = .legacy then
    match tools.convert stage expanded with
    | .ok converted => (converted.source, some converted.bindings)
    | .error _ => (expanded, none)
  else (expanded, none)

/-- The answer to a job without any cache: the source is expanded, converted if it has to be, and
compiled. -/
def uncached (tools : Toolchain) (maxDepth : Nat) (job : CompileJob) : Except Failure Artifact :=
  match Shader.expand job.sources maxDepth job.source job.name with
  | .error fault => .error (.expansion fault)
  | .ok expanded =>
      let final := finalSource tools job.stage expanded
      match tools.compile job.name job.stage final.1 with
      | .error cause => .error (.compilation job.name job.stage cause)
      | .ok bytecode =>
          .ok
            { name := job.name
              stage := job.stage
              bytecode := bytecode
              bindings := final.2
              key := CacheKey.derive job.name final.1 job.stage job.version
              fromCache := false }

variable {tools : Toolchain} {c : Compiler} {maxDepth : Nat} {job : CompileJob}
  {jobs : List CompileJob}

theorem finalSource_eq (tools : Toolchain) (stage : Stage) (expanded : String) :
    finalSource tools stage expanded =
      ((tools.prepare stage expanded).source, (tools.prepare stage expanded).bindings) := by
  unfold finalSource Toolchain.prepare
  cases Dialect.ofSource expanded with
  | native => rfl
  | legacy => cases tools.convert stage expanded <;> rfl

/-- If nothing is found, a job is answered as without a cache. -/
theorem answer_of_nothing_found (tools : Toolchain) (maxDepth : Nat) (job : CompileJob) :
    answer tools maxDepth (fun _ => none) job = uncached tools maxDepth job := by
  unfold answer uncached
  cases Shader.expand job.sources maxDepth job.source job.name with
  | error fault => rfl
  | ok expanded =>
      simp only [finalSource_eq]
      cases tools.compile job.name job.stage (tools.prepare job.stage expanded).source <;> rfl

/-! ### Where the entries come from -/

/-- Bytecode is what the host's compiler makes of a job with this key. -/
def MadeFor (tools : Toolchain) (maxDepth : Nat) (jobs : List CompileJob) (key : CacheKey)
    (bytecode : Bytes) : Prop :=
  ∃ job ∈ jobs, ∃ i, finalIdentity? tools maxDepth job = some i ∧ i.key = key ∧
    tools.compile i.name i.stage i.source = .ok bytecode

/-- Different shaders among some jobs have different keys. -/
def KeysApart (tools : Toolchain) (maxDepth : Nat) (jobs : List CompileJob) : Prop :=
  ∀ job ∈ jobs, ∀ job' ∈ jobs, ∀ i i', finalIdentity? tools maxDepth job = some i →
    finalIdentity? tools maxDepth job' = some i' → i.key = i'.key → i = i'

/-- Compiling keeps the entries what the compiler makes. -/
theorem holds_madeFor_compile (hmem : job ∈ jobs)
    (h : c.cache.Holds (MadeFor tools c.maxDepth jobs)) :
    (c.compile tools job).2.cache.Holds (MadeFor tools c.maxDepth jobs) := by
  generalize hresult : c.compile tools job = result
  have houtcome := hresult ▸ outcome_compile tools c job
  cases houtcome with
  | unexpanded hexpand => exact h
  | cached hexpand hprepared hkey hfind => exact h.get _
  | refused hexpand hprepared hkey hfind hcompile => exact h
  | compiled hexpand hprepared hkey hfind hcompile =>
      subst hprepared hkey
      exact h.put ⟨job, hmem, _, finalIdentity?_of_expand hexpand, rfl, hcompile⟩

/-- What is found for a job is what the compiler makes of it. -/
theorem answer_of_madeFor {found : CacheKey → Option Bytes} (hmem : job ∈ jobs)
    (hkeys : KeysApart tools maxDepth jobs)
    (hfound : ∀ key bytecode, found key = some bytecode →
      MadeFor tools maxDepth jobs key bytecode) :
    (answer tools maxDepth found job).map Artifact.asCompiled = uncached tools maxDepth job := by
  rw [← answer_of_nothing_found]
  unfold answer
  cases hexpand : Shader.expand job.sources maxDepth job.source job.name with
  | error fault => rfl
  | ok expanded =>
      have hi : finalIdentity? tools maxDepth job =
          some (job.identity (tools.prepare job.stage expanded)) :=
        finalIdentity?_of_expand hexpand
      simp only
      cases hkey : found (job.identity (tools.prepare job.stage expanded)).key with
      | none =>
          cases tools.compile job.name job.stage (tools.prepare job.stage expanded).source <;> rfl
      | some bytecode =>
          obtain ⟨job', hmem', i', hi', hkey', hcompile⟩ := hfound _ _ hkey
          -- The entry was made for a job with the same key, hence for the same shader.
          have hsame := hkeys job' hmem' job hmem i' _ hi' hi hkey'
          subst hsame
          have hbytes : tools.compile job.name job.stage
              (tools.prepare job.stage expanded).source = .ok bytecode := hcompile
          simp only [hbytes]
          rfl

/-- Every step of a history keeps the entries what the compiler makes. -/
theorem holds_madeFor_afterStep {step : CompilerStep} {steps : List CompilerStep}
    (hsub : CompilerStep.jobs (step :: steps) ⊆ jobs)
    (h : c.cache.Holds (MadeFor tools c.maxDepth jobs)) :
    (c.afterStep tools step).cache.Holds (MadeFor tools c.maxDepth jobs) := by
  cases step with
  | compile job => exact holds_madeFor_compile (hsub (List.mem_cons_self ..)) h
  | evict => exact h.evict
  | clear => exact h.clear

/-- The answers of a history among whose jobs the keys are apart, from any cache whose entries were
made for these jobs. -/
theorem answers_of_madeFor (steps : List CompilerStep) (hsub : CompilerStep.jobs steps ⊆ jobs)
    (hkeys : KeysApart tools c.maxDepth jobs)
    (h : c.cache.Holds (MadeFor tools c.maxDepth jobs)) :
    (c.answers tools steps).map (Except.map Artifact.asCompiled) =
      (CompilerStep.jobs steps).map (uncached tools c.maxDepth) := by
  induction steps generalizing c with
  | nil => rfl
  | cons step steps ih =>
      have hdepth := maxDepth_afterStep tools c step
      have hstep := holds_madeFor_afterStep hsub h
      rw [← hdepth] at hstep
      cases step with
      | compile job =>
          have hmem : job ∈ jobs := hsub (List.mem_cons_self ..)
          have hrest := ih (fun _ hj => hsub (List.mem_cons_of_mem _ hj)) (by rwa [hdepth]) hstep
          rw [hdepth] at hrest
          have hfirst := answer_of_madeFor hmem hkeys fun key bytecode => h.found
          rw [← compile_fst] at hfirst
          simp only [answers, CompilerStep.jobs, List.map_cons, hfirst]
          exact congrArg _ hrest
      | evict => exact ih hsub hkeys hstep
      | clear => exact ih hsub hkeys hstep

/-! ### Transparency -/

/-- **The cache does not show in the answers:** in a history that starts without entries, and among
whose jobs different shaders have different keys, every answer is the answer without a cache, up to
the flag that tells where the bytecode was taken from. -/
theorem answers_eq_uncached {steps : List CompilerStep} (hvacant : c.cache.Vacant)
    (hkeys : KeysApart tools c.maxDepth (CompilerStep.jobs steps)) :
    (c.answers tools steps).map (Except.map Artifact.asCompiled) =
      (CompilerStep.jobs steps).map (uncached tools c.maxDepth) :=
  answers_of_madeFor steps (List.Subset.refl _) hkeys (.of_vacant hvacant)

/-- A host that puts a comment before what it converts and compiles every source to its bytes. -/
def echo : Toolchain where
  convert := fun _ source => .ok ⟨"// native\n" ++ source, {}⟩
  compile := fun _ _ source => .ok (Bytes.ofText source)

/-- A native and a legacy shader of one name, compiled between evictions and clearings of a cache on
a new directory. -/
theorem answers_eq_uncached_echo :
    let cache : Cache := { files := (FileTree.empty.createDirectories "cache").2, dir := "cache" }
    let c : Compiler := { cache := cache, maxDepth := 32 }
    let native : CompileJob := ⟨NameMap.empty, "a", "void main() {}\n", .vertex, "1.0"⟩
    let legacy : CompileJob := ⟨NameMap.empty, "a", "uniform vec4 tint;\n", .vertex, "1.0"⟩
    let steps : List CompilerStep :=
      [.compile native, .evict, .compile native, .compile legacy, .clear, .compile legacy]
    c.cache.Vacant ∧ KeysApart echo c.maxDepth (CompilerStep.jobs steps) ∧
      (c.answers echo steps).map (Except.map Artifact.asCompiled) =
        (CompilerStep.jobs steps).map (uncached echo c.maxDepth) := by
  intro cache c native legacy steps
  have hnames : (FileTree.empty.createDirectories "cache").2.namesIn "cache" = .ok [] := by
    decide +kernel
  have hvacant : c.cache.Vacant := Cache.vacant_of_namesIn rfl hnames
  let first : ShaderIdentity := ⟨"a", "void main() {}\n", .vertex, "1.0"⟩
  let second : ShaderIdentity := ⟨"a", "// native\nuniform vec4 tint;\n", .vertex, "1.0"⟩
  have hnative : finalIdentity? echo 32 native = some first := by decide
  have hlegacy : finalIdentity? echo 32 legacy = some second := by decide
  have hne : first.key ≠ second.key := by decide +kernel
  have hidentity : ∀ job ∈ CompilerStep.jobs steps, ∀ i, finalIdentity? echo 32 job = some i →
      i = first ∨ i = second := by
    intro job hjob i hi
    simp only [CompilerStep.jobs, steps, List.mem_cons, List.not_mem_nil, or_false] at hjob
    rcases hjob with rfl | rfl | rfl | rfl
    · exact .inl (Option.some.inj (hi.symm.trans hnative))
    · exact .inl (Option.some.inj (hi.symm.trans hnative))
    · exact .inr (Option.some.inj (hi.symm.trans hlegacy))
    · exact .inr (Option.some.inj (hi.symm.trans hlegacy))
  have hkeys : KeysApart echo c.maxDepth (CompilerStep.jobs steps) := by
    intro job hjob job' hjob' i i' hi hi' hkey
    rcases hidentity job hjob i hi with rfl | rfl <;>
      rcases hidentity job' hjob' i' hi' with rfl | rfl
    · rfl
    · exact absurd hkey hne
    · exact absurd hkey.symm hne
    · rfl
  exact ⟨hvacant, hkeys, answers_eq_uncached hvacant hkeys⟩

end Compiler

end Shaderworks
