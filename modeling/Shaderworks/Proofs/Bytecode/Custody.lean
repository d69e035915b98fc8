/-
**A cache whose directory is nobody else's.**

Directories around a cache may come and go, so a file of it may be out of reach for a while and be
found again later.  But where a path leads, if it leads anywhere, is decided by its segments alone.
So every key has one home, where its file is whenever it is found.  As long as nobody else writes
there, all entries of a cache are what its compiler put into it, and every job is answered as
without a cache, whatever happens to the other files.

Main definitions:

* `FileTree.follow` — the place that a segment leads to, whatever stands there;
* `Cache.home` — the place of the file of a key;
* `Cache.Kept` — all entries of a cache, in memory and at home, have some property;
* `Compiler.Sound` — all entries of a compiler's cache are what the host's compiler makes.

Main results:

* `FileTree.walk_eq_follow` — where a path leads, if it leads anywhere;
* `FileTree.contentAt_createDirectories` — making directories brings no file anywhere;
* `Cache.Kept.put`, `Cache.Kept.clear`, `Cache.Kept.withFiles` — what keeps the property;
* `Compiler.Sound.compile`, `Compiler.Sound.answer` — **a sound compiler answers as without a
  cache, and stays sound.**
-/

import Shaderworks.Proofs.Bytecode.Transparency

set_option autoImplicit false

namespace Shaderworks

namespace FileTree

variable {t : FileTree} {here next : Place} {segment : String}

/-! ### Where paths lead -/

/-- The place that a segment leads to from a place, whatever stands there. -/
def follow (here : Place) (segment : String) : Place :=
  if segment = "" ∨ segment = "." then here
  else if segment = ".." then here.dropLast
  else here ++ [segment]

theorem step_eq_follow (h : t.step here segment = .ok next) : next = follow here segment := by
  unfold step at h
  unfold follow
  split at h
  · cases h
  · cases h
  · split_ifs at h ⊢ with hstay hup hlong
    · exact (Except.ok.inj h).symm
    · exact (Except.ok.inj h).symm
    · split at h
      · cases h
      · exact (Except.ok.inj h).symm

/-- Where segments lead, if they lead anywhere, is decided by the segments. -/
theorem walk_eq_follow {segments : List String} (h : t.walk here segments = .ok next) :
    next = segments.foldl follow here := by
  induction segments generalizing here with
  | nil => exact (Except.ok.inj h).symm
  | cons segment rest ih =>
      rw [walk] at h
      cases hstep : t.step here segment with
      | error fault => simp [hstep] at h
      | ok middle =>
          simp only [hstep] at h
          rw [List.foldl_cons, ← step_eq_follow hstep]
          exact ih h

/-! ### Making directories -/

theorem contentAt_set_directory {place other : Place} {content : Bytes} (hroot : place ≠ [])
    (h : (t.set place .directory).contentAt other = some content) :
    t.contentAt other = some content := by
  rw [contentAt_eq_some, entryAt_set hroot] at h
  split at h
  · cases h
  · exact contentAt_eq_some.2 h

theorem contentAt_makeAlong {segments : List String} {place : Place} {content : Bytes}
    (h : (t.makeAlong here segments).2.contentAt place = some content) :
    t.contentAt place = some content := by
  induction segments generalizing t here with
  | nil =>
      rw [makeAlong] at h
      split at h <;> exact h
  | cons segment rest ih =>
      rw [makeAlong] at h
      split at h
      · exact ih h
      · split at h
        · exact h
        · exact contentAt_set_directory (by simp) (ih h)
      · exact h

/-- **Making directories brings no file anywhere.** -/
theorem contentAt_createDirectories {path : Path} {place : Place} {content : Bytes}
    (h : (t.createDirectories path).2.contentAt place = some content) :
    t.contentAt place = some content := by
  unfold createDirectories at h
  split at h
  · exact h
  · split at h
    · exact h
    · have hmade : (t.makeAlong [] path.segments).2.contentAt place = some content := by
        split at h
        all_goals
          next heq => rw [heq]; exact h
      exact contentAt_makeAlong hmade

end FileTree

namespace Cache

variable {cache : Cache} {key other : CacheKey} {P : CacheKey → Bytes → Prop}

/-! ### The homes of keys -/

/-- Where the file of a key is, whenever it is found. -/
def home (cache : Cache) (key : CacheKey) : Place :=
  (Path.frontSegments cache.dir).foldl FileTree.follow [] ++ [fileName key]

theorem home_injective (h : cache.home key = cache.home other) : key = other := by
  have hlast := congrArg List.getLast? h
  simp only [home, List.getLast?_concat, Option.some.injEq] at hlast
  exact fileName_injective hlast

theorem home_ne_root (cache : Cache) (key : CacheKey) : cache.home key ≠ [] := by simp [home]

/-- A file is found at home or nowhere. -/
theorem place?_eq_home {place : Place} (h : cache.place? key = some place) :
    place = cache.home key := by
  obtain ⟨parent, hparent, rfl⟩ := Option.map_eq_some_iff.1 h
  obtain ⟨-, hwalk, -⟩ := FileTree.parent?_eq_some hparent
  rw [segments_entryPath, List.dropLast_concat] at hwalk
  rw [FileTree.walk_eq_follow hwalk, home]

/-- In an empty directory no key has a file at home. -/
theorem contentAt_home_of_namesIn (hnames : cache.files.namesIn cache.dir = .ok [])
    (key : CacheKey) : cache.files.contentAt (cache.home key) = none := by
  obtain ⟨place, hfind⟩ := FileTree.find_of_namesIn hnames
  obtain ⟨hfault, hwalk, -⟩ := FileTree.find_eq_ok hfind
  have hne : cache.dir ≠ "" := fun heq => by simp [heq, FileTree.pathFault?] at hfault
  have hplace : place = (Path.frontSegments cache.dir).foldl FileTree.follow [] := by
    rw [FileTree.walk_eq_follow hwalk, Path.frontSegments, if_neg hne]
    by_cases hslash : cache.dir.toList.getLast? = some '/'
    · rw [if_pos hslash, Path.segments_of_slash hslash, List.foldl_append, List.dropLast_concat]
      simp [FileTree.follow]
    · rw [if_neg hslash]
  cases hcontent : cache.files.contentAt (cache.home key) with
  | none => rfl
  | some bytecode =>
      have hentry := FileTree.contentAt_eq_some.1 hcontent
      rw [home, ← hplace] at hentry
      have hlisted : fileName key ∈ ([] : List String) :=
        FileTree.mem_namesIn hfind hnames (by rw [hentry]; rfl)
      exact absurd hlisted List.not_mem_nil

/-! ### What is kept -/

/-- All entries of a cache have a property: those in memory, and those at home, whether they can be
reached or not. -/
structure Kept (P : CacheKey → Bytes → Prop) (cache : Cache) : Prop where
  memory : ∀ key bytecode, cache.memory.get? key = some bytecode → P key bytecode
  files : ∀ key bytecode, cache.files.contentAt (cache.home key) = some bytecode → P key bytecode

namespace Kept

theorem mono {Q : CacheKey → Bytes → Prop} (h : cache.Kept P)
    (hPQ : ∀ key bytecode, P key bytecode → Q key bytecode) : cache.Kept Q :=
  ⟨fun key bytecode hmem => hPQ _ _ (h.memory key bytecode hmem),
    fun key bytecode hfile => hPQ _ _ (h.files key bytecode hfile)⟩

/-- What can be reached is kept. -/
theorem holds (h : cache.Kept P) : cache.Holds P := by
  rintro key bytecode (hmemory | hstored)
  · exact h.memory key bytecode hmemory
  · rw [stored?_eq] at hstored
    obtain ⟨place, hplace, hcontent⟩ := Option.bind_eq_some_iff.1 hstored
    exact h.files key bytecode (place?_eq_home hplace ▸ hcontent)

theorem get (h : cache.Kept P) (key : CacheKey) : (cache.get key).2.Kept P := by
  obtain ⟨hfiles, hdir⟩ := get_files cache key
  refine ⟨fun other bytecode hmemory => ?_, fun other bytecode hcontent => ?_⟩
  · rw [memory_get] at hmemory
    split at hmemory
    · next ho => exact ho ▸ h.holds.found hmemory
    · exact h.memory other bytecode hmemory
  · rw [home, hfiles, hdir] at hcontent
    exact h.files other bytecode hcontent

theorem put (h : cache.Kept P) {bytecode : Bytes} (hnew : P key bytecode) :
    (cache.put key bytecode).Kept P := by
  refine ⟨fun other found hmemory => ?_, fun other found hcontent => ?_⟩
  · have hput : (cache.put key bytecode).memory = cache.memory.put key bytecode := rfl
    rw [hput, Table.get?_put] at hmemory
    split at hmemory
    · next ho => cases hmemory; exact ho ▸ hnew
    · exact h.memory other found hmemory
  · have hhome : (cache.put key bytecode).home other = cache.home other := rfl
    rw [hhome] at hcontent
    rcases files_put cache key bytecode with ⟨place, hplace, -, hfiles⟩ | ⟨-, hfiles⟩
    · obtain rfl := place?_eq_home hplace
      rw [hfiles, FileTree.contentAt_set (home_ne_root cache key)] at hcontent
      split at hcontent
      · next ho => cases hcontent; exact home_injective ho ▸ hnew
      · exact h.files other found hcontent
    · rw [hfiles] at hcontent
      exact h.files other found hcontent

theorem evict (h : cache.Kept P) : cache.evict.Kept P :=
  ⟨fun key bytecode hmemory => (by cases hmemory), h.files⟩

theorem clear (h : cache.Kept P) : cache.clear.Kept P := by
  refine ⟨fun key bytecode hmemory => (by cases hmemory), fun key bytecode hcontent => ?_⟩
  obtain ⟨-, hentries⟩ := removeNames_keeps cache.dir cache.files cache.entryNames
  have hentry := hentries (cache.home key) _ (FileTree.contentAt_eq_some.1 hcontent)
  exact h.files key bytecode (FileTree.contentAt_eq_some.2 hentry)

/-- Other files may change as they like. -/
theorem withFiles (h : cache.Kept P) {files : FileTree}
    (hfiles : ∀ key bytecode, files.contentAt (cache.home key) = some bytecode →
      cache.files.contentAt (cache.home key) = some bytecode) :
    Kept P { cache with files } :=
  ⟨h.memory, fun key bytecode hcontent => h.files key bytecode (hfiles key bytecode hcontent)⟩

end Kept

end Cache

/-! ### Sound compilers -/

namespace Compiler

variable {tools : Toolchain} {c : Compiler} {depth : Nat} {job : CompileJob}
  {jobs more : List CompileJob}

theorem MadeFor.mono {key : CacheKey} {bytecode : Bytes} (hsub : jobs ⊆ more)
    (h : MadeFor tools depth jobs key bytecode) : MadeFor tools depth more key bytecode := by
  obtain ⟨job, hjob, hmade⟩ := h
  exact ⟨job, hsub hjob, hmade⟩

/-- Whether keys are apart can be checked shader by shader. -/
theorem keysApart_iff : KeysApart tools depth jobs ↔
    ∀ i ∈ jobs.filterMap (finalIdentity? tools depth),
      ∀ i' ∈ jobs.filterMap (finalIdentity? tools depth), i.key = i'.key → i = i' := by
  simp only [KeysApart, List.mem_filterMap]
  constructor
  · rintro h i ⟨job, hjob, hi⟩ i' ⟨job', hjob', hi'⟩
    exact h job hjob job' hjob' i i' hi hi'
  · intro h job hjob job' hjob' i i' hi hi'
    exact h i ⟨job, hjob, hi⟩ i' ⟨job', hjob', hi'⟩

/-- All entries of the cache are what the host's compiler makes of some jobs. -/
structure Sound (tools : Toolchain) (depth : Nat) (jobs : List CompileJob) (c : Compiler) :
    Prop where
  maxDepth : c.maxDepth = depth
  kept : c.cache.Kept (MadeFor tools depth jobs)

namespace Sound

theorem mono (h : c.Sound tools depth jobs) (hsub : jobs ⊆ more) : c.Sound tools depth more :=
  ⟨h.maxDepth, h.kept.mono fun _ _ => MadeFor.mono hsub⟩

theorem compile (h : c.Sound tools depth jobs) (hmem : job ∈ jobs) :
    (c.compile tools job).2.Sound tools depth jobs := by
  refine ⟨(maxDepth_compile tools c job).trans h.maxDepth, ?_⟩
  generalize hresult : c.compile tools job = result
  have houtcome := hresult ▸ outcome_compile tools c job
  cases houtcome with
  | unexpanded hexpand => exact h.kept
  | cached hexpand hprepared hkey hfind => exact h.kept.get _
  | refused hexpand hprepared hkey hfind hcompile => exact h.kept
  | compiled hexpand hprepared hkey hfind hcompile =>
      subst hprepared hkey
      rw [h.maxDepth] at hexpand
      exact h.kept.put ⟨job, hmem, _, finalIdentity?_of_expand hexpand, rfl, hcompile⟩

/-- **A sound compiler answers as without a cache.** -/
theorem answer (h : c.Sound tools depth jobs) (hmem : job ∈ jobs)
    (hkeys : KeysApart tools depth jobs) :
    (c.compile tools job).1.map Artifact.asCompiled = uncached tools depth job := by
  rw [compile_fst, h.maxDepth]
  exact answer_of_madeFor hmem hkeys fun key bytecode => h.kept.holds.found

end Sound

end Compiler

end Shaderworks
