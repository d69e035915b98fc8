/-
**The account of the host's compiler.**

The compiler of the host is slow, so it matters when it is called.  A ledger keeps, beside the
compiler, every call of the host's compiler and a receipt of every job.  Over a cache whose files
can be written and that nobody else touches, a key that was compiled is answered from the cache from
then on, whatever was evicted and however often the cache was opened anew; a key that was only
refused is tried again each time; and the counters count the calls and the receipts.

Main definitions:

* `Invocation`, `Receipt`, `Compiler.receipt` — a call of the host's compiler, and what a job got;
* `WorkStep`, `Ledger`, `Ledger.after` — compiles, evictions and new compilers, and the account of
  them;
* `Compiler.Dealt` — the four ways to deal with a job, as they show in its receipt;
* `Cache.Faithful` — a cache has what was compiled and lacks what was only refused.

Main results:

* `Compiler.dealt_compile` — every job is dealt with in one of the four ways;
* `Ledger.sound_after` — the account is right after every history;
* `Ledger.compiled_once_and_counted` — **nothing is compiled twice, failures are retried, and the
  counters are right.**
-/

import Shaderworks.Proofs.Bytecode.Outcome
import Shaderworks.Proofs.Bytecode.Recall
import Shaderworks.Proofs.Bytecode.Transparency

set_option autoImplicit false

namespace Shaderworks

/-! ### The account -/

/-- A call of the host's compiler. -/
structure Invocation where
  /-- The key of what the compiler was handed. -/
  key : CacheKey
  /-- What it answered. -/
  answer : Except Cause Bytes
  deriving DecidableEq

namespace Invocation

/-- Whether the host's compiler gave bytecode. -/
def succeeded (i : Invocation) : Bool := i.answer.toOption.isSome

/-- A call of a tool, if the tool is the compiler. -/
def ofCall? (tools : Toolchain) (version : String) : ToolCall → Option Invocation
  | .convert .. => none
  | .compile name stage source =>
      some ⟨CacheKey.derive name source stage version, tools.compile name stage source⟩

end Invocation

/-- What a job got. -/
structure Receipt where
  /-- Whether its includes could be expanded. -/
  expanded : Bool
  /-- The answer. -/
  answer : Except Failure Artifact
  /-- The calls of the host's compiler that were made for it. -/
  invocations : List Invocation
  deriving DecidableEq

/-- Whether a job was answered with bytecode from the cache. -/
def Receipt.recalled (r : Receipt) : Bool :=
  match r.answer with
  | .ok artifact => artifact.fromCache
  | .error _ => false

/-- The receipt of a job.  The calls that were made for it are those that are noted since. -/
def Compiler.receipt (tools : Toolchain) (c : Compiler) (job : CompileJob) : Receipt where
  expanded := (Shader.expand job.sources c.maxDepth job.source job.name).toOption.isSome
  answer := (c.compile tools job).1
  invocations :=
    ((c.compile tools job).2.calls.drop c.calls.length).filterMap
      (Invocation.ofCall? tools job.version)

/-- A step in the life of a cache and its compilers. -/
inductive WorkStep where
  /-- A job is compiled, with the tools that the host has by then. -/
  | compile (tools : Toolchain) (job : CompileJob)
  /-- The cache drops what is in memory. -/
  | evict
  /-- A new compiler is made for the cache. -/
  | renew (maxDepth : Nat)
  /-- The cache is opened anew on its directory, and a new compiler is made for it. -/
  | reopen (maxDepth : Nat)

/-- A compiler with the account of what was done. -/
structure Ledger where
  /-- The compiler. -/
  compiler : Compiler
  /-- The calls of the host's compiler, by this compiler and those before it. -/
  invocations : List Invocation := []
  /-- The receipts of the jobs of this compiler. -/
  receipts : List Receipt := []

namespace Ledger

/-- The account after one more step. -/
def next (l : Ledger) : WorkStep → Ledger
  | .compile tools job =>
      { compiler := (l.compiler.compile tools job).2
        invocations := l.invocations ++ (l.compiler.receipt tools job).invocations
        receipts := l.receipts ++ [l.compiler.receipt tools job] }
  | .evict => { l with compiler := { l.compiler with cache := l.compiler.cache.evict } }
  | .renew maxDepth =>
      { compiler := { cache := l.compiler.cache, maxDepth }, invocations := l.invocations }
  | .reopen maxDepth =>
      { compiler := { cache := l.compiler.cache.afterStep .reopen, maxDepth }
        invocations := l.invocations }

/-- The account of a new compiler after a history. -/
def after (cache : Cache) (maxDepth : Nat) (steps : List WorkStep) : Ledger :=
  steps.foldl next { compiler := { cache, maxDepth } }

end Ledger

/-! ### One job -/

namespace Compiler

variable {tools : Toolchain} {c : Compiler} {job : CompileJob}

/-- The ways to deal with a job: the receipt, and the compiler afterwards. -/
inductive Dealt (tools : Toolchain) (c : Compiler) (job : CompileJob) : Receipt → Compiler → Prop
  /-- The includes cannot be expanded. -/
  | unexpanded {fault : Shader.IncludeFault}
      (hidentity : finalIdentity? tools c.maxDepth job = none) :
      Dealt tools c job ⟨false, .error (.expansion fault), []⟩ c
  /-- The bytecode is in the cache. -/
  | recalled {i : ShaderIdentity} {artifact : Artifact} {c' : Compiler}
      (hidentity : finalIdentity? tools c.maxDepth job = some i)
      (hfind : c.cache.find? i.key = some artifact.bytecode)
      (hflag : artifact.fromCache = true)
      (hcache : c'.cache = (c.cache.get i.key).2)
      (hstats : c'.stats = { c.stats with cacheHits := c.stats.cacheHits + 1 }) :
      Dealt tools c job ⟨true, .ok artifact, []⟩ c'
  /-- The host's compiler is called and refuses the source. -/
  | refused {i : ShaderIdentity} {cause : Cause} {c' : Compiler}
      (hidentity : finalIdentity? tools c.maxDepth job = some i)
      (hfind : c.cache.find? i.key = none)
      (hcompile : tools.compile i.name i.stage i.source = .error cause)
      (hcache : c'.cache = c.cache)
      (hstats : c'.stats = { c.stats with failed := c.stats.failed + 1 }) :
      Dealt tools c job ⟨true, .error (.compilation i.name i.stage cause), [⟨i.key, .error cause⟩]⟩ c'
  /-- The host's compiler is called and compiles the source. -/
  | compiled {i : ShaderIdentity} {artifact : Artifact} {c' : Compiler}
      (hidentity : finalIdentity? tools c.maxDepth job = some i)
      (hfind : c.cache.find? i.key = none)
      (hcompile : tools.compile i.name i.stage i.source = .ok artifact.bytecode)
      (hflag : artifact.fromCache = false)
      (hcache : c'.cache = c.cache.put i.key artifact.bytecode)
      (hstats : c'.stats = { c.stats with compiled := c.stats.compiled + 1 }) :
      Dealt tools c job ⟨true, .ok artifact, [⟨i.key, .ok artifact.bytecode⟩]⟩ c'

/-- Preparing a source calls the converter alone. -/
theorem filterMap_prepareCalls (tools : Toolchain) (version : String) (stage : Stage)
    (source : String) :
    (Toolchain.prepareCalls stage source).filterMap (Invocation.ofCall? tools version) = [] := by
  unfold Toolchain.prepareCalls
  cases Dialect.ofSource source <;> rfl

/-- **Every job is dealt with in one of the four ways.** -/
theorem dealt_compile (tools : Toolchain) (c : Compiler) (job : CompileJob) :
    Dealt tools c job (c.receipt tools job) (c.compile tools job).2 := by
  unfold receipt
  generalize hresult : c.compile tools job = result
  have houtcome := hresult ▸ outcome_compile tools c job
  cases houtcome with
  | unexpanded hexpand =>
      rw [hexpand, List.drop_length]
      exact .unexpanded (by rw [finalIdentity?, hexpand])
  | @cached expanded prepared key bytecode hexpand hprepared hkey hfind =>
      subst hprepared hkey
      rw [hexpand]
      simp only [afterPreparing, notePrepared, List.drop_left, filterMap_prepareCalls]
      exact .recalled (finalIdentity?_of_expand hexpand) hfind rfl rfl rfl
  | @refused expanded prepared key cause hexpand hprepared hkey hfind hcompile =>
      subst hprepared hkey
      rw [hexpand]
      simp only [afterCalling, afterPreparing, notePrepared, List.append_assoc, List.drop_left,
        List.filterMap_append, filterMap_prepareCalls, List.nil_append, List.filterMap_cons,
        Invocation.ofCall?, List.filterMap_nil, hcompile]
      exact .refused (i := job.identity (tools.prepare job.stage expanded))
        (finalIdentity?_of_expand hexpand) hfind hcompile rfl rfl
  | @compiled expanded prepared key bytecode hexpand hprepared hkey hfind hcompile =>
      subst hprepared hkey
      rw [hexpand]
      simp only [afterCalling, afterPreparing, notePrepared, List.append_assoc, List.drop_left,
        List.filterMap_append, filterMap_prepareCalls, List.nil_append, List.filterMap_cons,
        Invocation.ofCall?, List.filterMap_nil, hcompile]
      exact .compiled (i := job.identity (tools.prepare job.stage expanded))
        (finalIdentity?_of_expand hexpand) hfind hcompile rfl rfl rfl

/-- A job whose key is found is answered with what is found, and no compiler is called. -/
theorem receipt_of_find? {i : ShaderIdentity} {bytecode : Bytes}
    (hidentity : finalIdentity? tools c.maxDepth job = some i)
    (hfind : c.cache.find? i.key = some bytecode) :
    (c.receipt tools job).invocations = [] ∧ ∃ artifact,
      (c.receipt tools job).answer = .ok artifact ∧ artifact.bytecode = bytecode ∧
        artifact.fromCache = true := by
  generalize hreceipt : c.receipt tools job = r
  generalize hafter : (c.compile tools job).2 = c'
  have hdealt := hafter ▸ hreceipt ▸ dealt_compile tools c job
  cases hdealt with
  | unexpanded h => rw [hidentity] at h; cases h
  | recalled h hfound hflag =>
      obtain rfl := Option.some.inj (hidentity.symm.trans h)
      exact ⟨rfl, _, rfl, Option.some.inj (hfound.symm.trans hfind), hflag⟩
  | refused h hmissing =>
      obtain rfl := Option.some.inj (hidentity.symm.trans h)
      rw [hfind] at hmissing
      cases hmissing
  | compiled h hmissing =>
      obtain rfl := Option.some.inj (hidentity.symm.trans h)
      rw [hfind] at hmissing
      cases hmissing

/-- For a job whose key is not found the compiler is called once. -/
theorem invocations_of_find?_none {i : ShaderIdentity}
    (hidentity : finalIdentity? tools c.maxDepth job = some i)
    (hfind : c.cache.find? i.key = none) :
    (c.receipt tools job).invocations = [⟨i.key, tools.compile i.name i.stage i.source⟩] := by
  generalize hreceipt : c.receipt tools job = r
  generalize hafter : (c.compile tools job).2 = c'
  have hdealt := hafter ▸ hreceipt ▸ dealt_compile tools c job
  cases hdealt with
  | unexpanded h => rw [hidentity] at h; cases h
  | recalled h hfound =>
      obtain rfl := Option.some.inj (hidentity.symm.trans h)
      rw [hfind] at hfound
      cases hfound
  | refused h _ hcompile =>
      obtain rfl := Option.some.inj (hidentity.symm.trans h)
      rw [hcompile]
  | compiled h _ hcompile =>
      obtain rfl := Option.some.inj (hidentity.symm.trans h)
      rw [hcompile]

end Compiler

/-! ### What the cache has -/

namespace Cache

variable {cache : Cache} {log : List Invocation} {key : CacheKey} {bytecode : Bytes} {cause : Cause}

/-- A cache has what was compiled, in memory or not, and lacks what was only refused; and all its
files can be written. -/
structure Faithful (cache : Cache) (log : List Invocation) : Prop where
  /-- Every key can be written. -/
  writable : ∀ key, cache.Writable key
  /-- What was compiled is in the directory, and is found. -/
  kept : ∀ key bytecode, ⟨key, .ok bytecode⟩ ∈ log →
    cache.stored? key = some bytecode ∧ cache.find? key = some bytecode
  /-- What was only refused is not found. -/
  missing : ∀ key cause, ⟨key, .error cause⟩ ∈ log → (∀ bytecode, ⟨key, .ok bytecode⟩ ∉ log) →
    cache.find? key = none

namespace Faithful

/-- What is not found was not compiled. -/
theorem not_compiled (h : cache.Faithful log) (hfind : cache.find? key = none)
    (bytecode : Bytes) : ⟨key, .ok bytecode⟩ ∉ log := by
  intro hmem
  rw [(h.kept key bytecode hmem).2] at hfind
  cases hfind

theorem evict (h : cache.Faithful log) : cache.evict.Faithful log := by
  have hstored : ∀ key, cache.evict.stored? key = cache.stored? key := stored?_forgotten cache
  refine ⟨fun key => (writable_congr (.refl _) rfl).2 (h.writable key), ?_, ?_⟩
  · intro key bytecode hmem
    have hkept := (h.kept key bytecode hmem).1
    exact ⟨(hstored key).trans hkept, (hstored key).trans hkept⟩
  · intro key cause hmem hnever
    have hmissing := h.missing key cause hmem hnever
    rw [find?_eq, Option.or_eq_none_iff] at hmissing
    exact (hstored key).trans hmissing.2

/-- Opening the cache anew only drops what is in memory. -/
theorem reopen (h : cache.Faithful log) : (cache.afterStep .reopen).Faithful log := by
  have hsame : cache.afterStep .reopen = cache.evict := by
    simp only [afterStep, mount_of_writable (h.writable ⟨List.replicate 32 0, rfl⟩), Cache.evict]
  rw [hsame]
  exact h.evict

theorem get (h : cache.Faithful log) (key : CacheKey) : (cache.get key).2.Faithful log := by
  obtain ⟨hfiles, hdir⟩ := get_files cache key
  refine ⟨fun other => ?_, ?_, ?_⟩
  · refine (writable_congr ?_ hdir).2 (h.writable other)
    rw [hfiles]
    exact .refl _
  · intro other bytecode hmem
    rw [stored?_get, find?_get]
    exact h.kept other bytecode hmem
  · intro other cause hmem hnever
    rw [find?_get]
    exact h.missing other cause hmem hnever

/-- A key that is not found is refused. -/
theorem refused (h : cache.Faithful log) (hfind : cache.find? key = none) (cause : Cause) :
    cache.Faithful (log ++ [⟨key, .error cause⟩]) := by
  refine ⟨h.writable, ?_, ?_⟩
  · intro other bytecode hmem
    refine h.kept other bytecode ((List.mem_append.1 hmem).resolve_right ?_)
    simp
  · intro other cause' hmem hnever
    rcases List.mem_append.1 hmem with hold | hnew
    · exact h.missing other cause' hold fun bytecode hmem =>
        hnever bytecode (List.mem_append_left _ hmem)
    · cases List.mem_singleton.1 hnew
      exact hfind

/-- A key that is not found is compiled, and the bytecode is put into the cache. -/
theorem compiled (h : cache.Faithful log) (hfind : cache.find? key = none) (bytecode : Bytes) :
    (cache.put key bytecode).Faithful (log ++ [⟨key, .ok bytecode⟩]) := by
  refine ⟨fun other => ?_, ?_, ?_⟩
  · exact (writable_congr (sameDirectories_put cache key bytecode) rfl).2 (h.writable other)
  · intro other found hmem
    rw [stored?_put, find?_put]
    rcases List.mem_append.1 hmem with hold | hnew
    · -- What was compiled before has another key, for this one was not found.
      have hne : other ≠ key := fun heq => h.not_compiled hfind found (heq ▸ hold)
      rw [if_neg fun hboth => hne hboth.1, if_neg hne]
      exact h.kept other found hold
    · cases List.mem_singleton.1 hnew
      exact ⟨if_pos ⟨rfl, h.writable key⟩, if_pos rfl⟩
  · intro other cause hmem hnever
    have hne : other ≠ key := by
      rintro rfl
      exact hnever bytecode (List.mem_append_right _ (List.mem_singleton.2 rfl))
    rw [find?_put, if_neg hne]
    refine h.missing other cause ((List.mem_append.1 hmem).resolve_right ?_) fun found hold =>
      hnever found (List.mem_append_left _ hold)
    simp

end Faithful

end Cache

/-! ### Whole histories -/

/-- No key is handed to the host's compiler after the compiler gave bytecode for it. -/
def CompiledOnce (log : List Invocation) : Prop :=
  log.Pairwise fun earlier later => earlier.succeeded = true → later.key ≠ earlier.key

/-- One more call, for a key that is not found. -/
theorem CompiledOnce.concat {cache : Cache} {log : List Invocation} {i : Invocation}
    (h : CompiledOnce log) (hcache : cache.Faithful log) (hfind : cache.find? i.key = none) :
    CompiledOnce (log ++ [i]) := by
  refine List.pairwise_append.2 ⟨h, List.pairwise_singleton .., fun earlier hmem later hlater => ?_⟩
  cases List.mem_singleton.1 hlater
  intro hsucceeded heq
  obtain ⟨key, answer⟩ := earlier
  cases answer with
  | error cause => cases hsucceeded
  | ok bytecode =>
      rw [heq] at hfind
      exact hcache.not_compiled hfind bytecode hmem

namespace Compiler.Dealt

variable {tools : Toolchain} {c c' : Compiler} {job : CompileJob} {r : Receipt}
  {log : List Invocation}

/-- After a job the cache has and lacks what it should. -/
theorem faithful (h : Dealt tools c job r c') (hcache : c.cache.Faithful log) :
    c'.cache.Faithful (log ++ r.invocations) := by
  cases h with
  | unexpanded => rwa [List.append_nil]
  | recalled _ _ _ hafter => rw [hafter, List.append_nil]; exact hcache.get _
  | refused _ hfind _ hafter => rw [hafter]; exact hcache.refused hfind _
  | compiled _ hfind _ _ hafter => rw [hafter]; exact hcache.compiled hfind _

/-- No job has a key compiled that was compiled before. -/
theorem compiledOnce (h : Dealt tools c job r c') (hcache : c.cache.Faithful log)
    (honce : CompiledOnce log) : CompiledOnce (log ++ r.invocations) := by
  cases h with
  | unexpanded => rwa [List.append_nil]
  | recalled => rwa [List.append_nil]
  | refused _ hfind => exact honce.concat hcache hfind
  | compiled _ hfind => exact honce.concat hcache hfind

end Compiler.Dealt

/-- The counters that fit some receipts. -/
structure CompileStats.Counts (stats : CompileStats) (receipts : List Receipt) : Prop where
  /-- Calls of the host's compiler that gave bytecode. -/
  compiled : stats.compiled =
    .ofNat ((receipts.flatMap Receipt.invocations).countP fun i => i.succeeded)
  /-- Calls of the host's compiler that gave none. -/
  failed : stats.failed =
    .ofNat ((receipts.flatMap Receipt.invocations).countP fun i => !i.succeeded)
  /-- Answers from the cache. -/
  cacheHits : stats.cacheHits = .ofNat (receipts.countP Receipt.recalled)
  /-- Jobs whose includes could be expanded. -/
  total : stats.cacheHits + stats.compiled + stats.failed =
    .ofNat (receipts.countP Receipt.expanded)

theorem CompileStats.counts_new : CompileStats.Counts {} [] := ⟨rfl, rfl, rfl, rfl⟩

/-- What a job adds to the counters is what its receipt shows, and it adds to one of them if its
includes can be expanded. -/
theorem Compiler.Dealt.tallies {tools : Toolchain} {c c' : Compiler} {job : CompileJob}
    {r : Receipt} (h : Dealt tools c job r c') :
    c'.stats.compiled = c.stats.compiled + .ofNat (r.invocations.countP fun i => i.succeeded) ∧
      c'.stats.failed = c.stats.failed + .ofNat (r.invocations.countP fun i => !i.succeeded) ∧
      c'.stats.cacheHits = c.stats.cacheHits + .ofNat ([r].countP Receipt.recalled) ∧
      [r].countP Receipt.recalled + (r.invocations.countP fun i => i.succeeded) +
        (r.invocations.countP fun i => !i.succeeded) = [r].countP Receipt.expanded := by
  cases h with
  | unexpanded hidentity =>
      exact ⟨(UInt64.add_zero _).symm, (UInt64.add_zero _).symm, (UInt64.add_zero _).symm, rfl⟩
  | @recalled i artifact _ hidentity hfind hflag hcache hstats =>
      rw [hstats]
      have hrecalled : List.countP Receipt.recalled [⟨true, .ok artifact, []⟩] = 1 :=
        List.countP_eq_length.2 (by simpa [Receipt.recalled] using hflag)
      rw [hrecalled]
      exact ⟨(UInt64.add_zero _).symm, (UInt64.add_zero _).symm, rfl, rfl⟩
  | refused hidentity hfind hcompile hcache hstats =>
      rw [hstats]
      exact ⟨(UInt64.add_zero _).symm, rfl, (UInt64.add_zero _).symm, rfl⟩
  | @compiled i artifact _ hidentity hfind hcompile hflag hcache hstats =>
      rw [hstats]
      have hrecalled : List.countP Receipt.recalled
          [⟨true, .ok artifact, [⟨i.key, .ok artifact.bytecode⟩]⟩] = 0 :=
        List.countP_eq_zero.2 (by simpa [Receipt.recalled] using hflag)
      rw [hrecalled]
      exact ⟨rfl, (UInt64.add_zero _).symm, (UInt64.add_zero _).symm, rfl⟩

/-- **One more job is counted.** -/
theorem CompileStats.Counts.concat {tools : Toolchain} {c c' : Compiler} {job : CompileJob}
    {receipts : List Receipt} {r : Receipt} (h : c.stats.Counts receipts)
    (hdealt : Compiler.Dealt tools c job r c') : c'.stats.Counts (receipts ++ [r]) := by
  obtain ⟨hcompiled, hfailed, hhits, htotal⟩ := hdealt.tallies
  have hcalls : (receipts ++ [r]).flatMap Receipt.invocations =
      receipts.flatMap Receipt.invocations ++ r.invocations := by
    rw [List.flatMap_append, List.flatMap_singleton]
  constructor
  · rw [hcompiled, hcalls, List.countP_append, UInt64.ofNat_add, h.compiled]
  · rw [hfailed, hcalls, List.countP_append, UInt64.ofNat_add, h.failed]
  · rw [hhits, List.countP_append, UInt64.ofNat_add, h.cacheHits]
  · rw [List.countP_append, UInt64.ofNat_add, ← h.total, ← htotal, UInt64.ofNat_add,
      UInt64.ofNat_add, hcompiled, hfailed, hhits]
    ac_rfl

namespace Ledger

variable {l : Ledger}

/-- An account is right. -/
structure Sound (l : Ledger) : Prop where
  /-- About the cache. -/
  faithful : l.compiler.cache.Faithful l.invocations
  /-- About the calls of the host's compiler. -/
  once : CompiledOnce l.invocations
  /-- About the counters. -/
  counts : l.compiler.stats.Counts l.receipts

/-- **One more step.** -/
theorem Sound.next (h : l.Sound) (step : WorkStep) : (l.next step).Sound := by
  cases step with
  | compile tools job =>
      generalize hreceipt : l.compiler.receipt tools job = r
      generalize hafter : (l.compiler.compile tools job).2 = c
      have hdealt : Compiler.Dealt tools l.compiler job r c :=
        hafter ▸ hreceipt ▸ Compiler.dealt_compile tools l.compiler job
      have hnext : l.next (.compile tools job) =
          ⟨c, l.invocations ++ r.invocations, l.receipts ++ [r]⟩ := by
        rw [Ledger.next, hreceipt, hafter]
      rw [hnext]
      exact ⟨hdealt.faithful h.faithful, hdealt.compiledOnce h.faithful h.once,
        h.counts.concat hdealt⟩
  | evict => exact ⟨h.faithful.evict, h.once, h.counts⟩
  | renew maxDepth => exact ⟨h.faithful, h.once, CompileStats.counts_new⟩
  | reopen maxDepth => exact ⟨h.faithful.reopen, h.once, CompileStats.counts_new⟩

/-- **The account is right after every history.** -/
theorem sound_after {cache : Cache} (hwritable : ∀ key, cache.Writable key) (maxDepth : Nat)
    (steps : List WorkStep) : (after cache maxDepth steps).Sound := by
  refine List.foldlRecOn steps next ?_ fun _ h step _ => h.next step
  exact ⟨⟨hwritable, nofun, nofun⟩, .nil, CompileStats.counts_new⟩

/-- **Nothing is compiled twice, failures are retried, and the counters are right,** over a cache
whose files can be written, whatever it has at first.

* No key is handed to the host's compiler after the compiler gave bytecode for it, be it for another
  compiler with the same cache or with one opened anew on the same directory.
* The next job with such a key is answered with that bytecode from the cache.  The next job with a
  key that was only refused is handed to the host's compiler, once.
* The counters of the present compiler are, modulo two to the sixty-fourth, the numbers of the calls
  of the host's compiler that succeeded and that failed, and of the answers from the cache; together
  they are the number of the jobs whose includes could be expanded. -/
theorem compiled_once_and_counted {cache : Cache} (hwritable : ∀ key, cache.Writable key)
    (maxDepth : Nat) (steps : List WorkStep) :
    let l := after cache maxDepth steps
    (∀ before key bytecode since, l.invocations = before ++ ⟨key, .ok bytecode⟩ :: since →
      ∀ later ∈ since, later.key ≠ key) ∧
    (∀ tools job i, Compiler.finalIdentity? tools l.compiler.maxDepth job = some i →
      (∀ bytecode, ⟨i.key, .ok bytecode⟩ ∈ l.invocations →
        (l.compiler.receipt tools job).invocations = [] ∧
          ∃ artifact, (l.compiler.compile tools job).1 = .ok artifact ∧
            artifact.bytecode = bytecode ∧ artifact.fromCache = true) ∧
      ((∃ cause, ⟨i.key, .error cause⟩ ∈ l.invocations) →
        (∀ bytecode, ⟨i.key, .ok bytecode⟩ ∉ l.invocations) →
        (l.compiler.receipt tools job).invocations =
          [⟨i.key, tools.compile i.name i.stage i.source⟩])) ∧
    l.compiler.stats.compiled =
      .ofNat ((l.receipts.flatMap Receipt.invocations).countP fun i => i.succeeded) ∧
    l.compiler.stats.failed =
      .ofNat ((l.receipts.flatMap Receipt.invocations).countP fun i => !i.succeeded) ∧
    l.compiler.stats.cacheHits = .ofNat (l.receipts.countP Receipt.recalled) ∧
    l.compiler.stats.cacheHits + l.compiler.stats.compiled + l.compiler.stats.failed =
      .ofNat (l.receipts.countP Receipt.expanded) := by
  intro l
  obtain ⟨hfaithful, honce, hcounts⟩ : l.Sound := sound_after hwritable maxDepth steps
  refine ⟨?_, fun tools job i hidentity => ⟨?_, ?_⟩, hcounts.compiled, hcounts.failed,
    hcounts.cacheHits, hcounts.total⟩
  · intro before key bytecode since hlog later hlater
    unfold CompiledOnce at honce
    rw [hlog, List.pairwise_append, List.pairwise_cons] at honce
    exact honce.2.1.1 later hlater rfl
  · intro bytecode hmem
    exact Compiler.receipt_of_find? hidentity (hfaithful.kept i.key bytecode hmem).2
  · rintro ⟨cause, hmem⟩ hnever
    exact Compiler.invocations_of_find?_none hidentity (hfaithful.missing i.key cause hmem hnever)

/-- A shader that is refused, then compiled by another compiler after an eviction, and asked for
again when the cache was opened anew. -/
theorem compiled_once_and_counted_reopened :
    let cache : Cache := { files := (FileTree.empty.createDirectories "cache").2, dir := "cache" }
    let refusing : Toolchain :=
      { Compiler.echo with compile := fun _ _ _ => .error { message := "no" } }
    let job : CompileJob := ⟨NameMap.empty, "a", "void main() {}\n", .vertex, "1.0"⟩
    let i : ShaderIdentity := ⟨"a", "void main() {}\n", .vertex, "1.0"⟩
    let bytecode := Bytes.ofText "void main() {}\n"
    let refused := after cache 32 [.compile refusing job, .evict, .renew 32]
    let reopened := after cache 32
      [.compile refusing job, .evict, .renew 32, .compile Compiler.echo job, .reopen 32]
    (∀ key, cache.Writable key) ∧
      refused.invocations = [⟨i.key, .error { message := "no" }⟩] ∧
      (refused.compiler.receipt Compiler.echo job).invocations = [⟨i.key, .ok bytecode⟩] ∧
      reopened.invocations = [⟨i.key, .error { message := "no" }⟩, ⟨i.key, .ok bytecode⟩] ∧
      (reopened.compiler.receipt Compiler.echo job).invocations = [] ∧
      ∃ artifact, (reopened.compiler.compile Compiler.echo job).1 = .ok artifact ∧
        artifact.bytecode = bytecode ∧ artifact.fromCache = true := by
  intro cache refusing job i bytecode refused reopened
  have hnew : cache.files.namesIn cache.dir = .ok [] := by decide +kernel
  have hwritable : ∀ key, cache.Writable key :=
    Cache.writable_of_namesIn (by decide) (by decide) hnew
  have hmissing : cache.find? i.key = none := (Cache.vacant_of_namesIn rfl hnew).2 i.key
  -- from here on the cache is any that has these properties
  clear_value cache
  have hidentity : ∀ tools : Toolchain, Compiler.finalIdentity? tools 32 job = some i := by
    intro tools
    have hexpand : Shader.expand job.sources 32 job.source job.name = .ok "void main() {}\n" := by
      decide
    have hnative : Dialect.ofSource "void main() {}\n" = .native := by decide
    rw [Compiler.finalIdentity?_of_expand hexpand, Toolchain.prepare_of_native hnative]
    rfl
  let new : Compiler := { cache := cache, maxDepth := 32 }
  have hfirst : refused.invocations = [⟨i.key, .error { message := "no" }⟩] := by
    have hstart : refused.invocations = [] ++ (new.receipt refusing job).invocations := rfl
    have hcalled := Compiler.invocations_of_find?_none (c := new) (hidentity refusing) hmissing
    rw [hstart, hcalled]
    rfl
  obtain ⟨-, hnext, -⟩ :=
    compiled_once_and_counted hwritable 32 [.compile refusing job, .evict, .renew 32]
  have hretried : (refused.compiler.receipt Compiler.echo job).invocations =
      [⟨i.key, .ok bytecode⟩] := by
    refine (hnext Compiler.echo job i ?_).2 ⟨{ message := "no" }, ?_⟩ ?_
    · exact hidentity Compiler.echo
    · exact hfirst ▸ List.mem_singleton.2 rfl
    · intro bytecode hmem
      have hone : ⟨i.key, .ok bytecode⟩ ∈ refused.invocations := hmem
      rw [hfirst] at hone
      cases List.mem_singleton.1 hone
  have hlog : reopened.invocations =
      [⟨i.key, .error { message := "no" }⟩, ⟨i.key, .ok bytecode⟩] := by
    have hsplit : reopened.invocations =
        refused.invocations ++ (refused.compiler.receipt Compiler.echo job).invocations := rfl
    rw [hsplit, hfirst, hretried]
    rfl
  obtain ⟨-, hlast, -⟩ := compiled_once_and_counted hwritable 32
    [.compile refusing job, .evict, .renew 32, .compile Compiler.echo job, .reopen 32]
  obtain ⟨hanswer, -⟩ := hlast Compiler.echo job i (hidentity _)
  refine ⟨hwritable, hfirst, hretried, hlog, hanswer bytecode ?_⟩
  exact hlog ▸ List.mem_cons_of_mem _ (List.mem_singleton.2 rfl)

end Ledger

end Shaderworks
