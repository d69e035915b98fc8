/-
**What a cache remembers.**

Seen from outside, a cache with two tiers is one map.  A key whose file can be written is found with
what was put under it last, until the cache is cleared; asking, dropping what is in memory and
opening the cache anew do not show.  A key whose file cannot be written, because a directory has its
name, lives in memory alone and is gone with it.

Main definitions:

* `CacheStep`, `Cache.afterStep`, `Cache.after` — histories of a cache on one directory;
* `CacheStep.Settles` — the steps after which earlier ones do not matter to a key;
* `CacheStep.LastPut` — what was put last under a key and is still remembered.

Main results:

* `Cache.stored?_clear` — clearing leaves no key a file;
* `Cache.mount_of_isDirectory`, `Cache.mount_of_writable` — opening a cache on a directory, or one
  whose files can be written, succeeds and changes no file;
* `Cache.stored?_afterStep`, `Cache.memory_afterStep` — each tier after one step;
* `Cache.get_after_eq_some_iff` — **a cache finds what was put last, and nothing else.**
-/

import Shaderworks.Proofs.Bytecode.Identity
import Shaderworks.Proofs.Files.Listing
import Mathlib.Data.List.Induction

set_option autoImplicit false

namespace Shaderworks

namespace Cache

variable {cache : Cache} {key : CacheKey}

/-! ### Clearing -/

theorem hasExtension_fileName (key : CacheKey) :
    Path.hasExtension (fileName key) cacheExtension = true := by
  have hname : (fileName key).toList = Bytes.hexDigits key.bytes ++ '.' :: cacheExtension.toList :=
    toList_fileName key
  refine (Path.hasExtension_iff (by decide)).2 ⟨_, _, hname, fun hempty => ?_, by decide, rfl⟩
  have hlength := Bytes.length_hexDigits key.bytes
  rw [hempty, key.length_eq] at hlength
  cases hlength

/-- A file that is removed by name is gone. -/
theorem contentAt_removeNames {dir : Path} {front : List String} {name : String} {parent : Place}
    (hsegments : (Path.join dir name).segments = front ++ [name])
    (hname : FileTree.OrdinaryName name) {names : List String} (hmem : name ∈ names) :
    ∀ {files : FileTree}, files.parent? (Path.join dir name) = some parent →
      (removeNames dir files names).contentAt (parent ++ [name]) = none := by
  -- What is gone does not come back when further files are removed.
  have hstays : ∀ files names, files.contentAt (parent ++ [name]) = none →
      (removeNames dir files names).contentAt (parent ++ [name]) = none := by
    intro files names hgone
    cases hcontent : (removeNames dir files names).contentAt (parent ++ [name]) with
    | none => rfl
    | some content =>
        have hentry := (removeNames_keeps dir files names).2 _ _
          (FileTree.contentAt_eq_some.1 hcontent)
        rw [FileTree.contentAt_eq_some.2 hentry] at hgone
        cases hgone
  induction names with
  | nil => cases hmem
  | cons first names ih =>
      intro files hparent
      have hstep : removeNames dir files (first :: names) =
          removeNames dir (removeNames dir files [first]) names := rfl
      rw [hstep]
      rcases List.mem_cons.1 hmem with rfl | hlater
      · apply hstays
        cases hcontent : files.contentAt (parent ++ [name]) with
        | none => exact hstays files [name] hcontent
        | some content =>
            have hfile := FileTree.contentAt_eq_some.1 hcontent
            have hremove := FileTree.remove_of_parent hsegments hname hparent hfile
            have hroot : parent ++ [name] ≠ [] := by simp
            simp [removeNames, hremove, Except.toOption, FileTree.contentAt,
              FileTree.entryAt_unset hroot]
      · refine ih hlater ?_
        rw [← FileTree.parent?_congr (removeNames_keeps dir files [first]).1]
        exact hparent

/-- **Clearing leaves no key a file.** -/
theorem stored?_clear (hdir : cache.files.isDirectory cache.dir = true) (key : CacheKey) :
    cache.clear.stored? key = none := by
  cases hcleared : cache.clear.stored? key with
  | none => rfl
  | some bytecode =>
      -- The file was there before, so its name is among those that are removed.
      have hstored := stored?_of_clear hcleared
      rw [stored?_eq] at hstored hcleared
      obtain ⟨place, hplace, hcontent⟩ := Option.bind_eq_some_iff.1 hstored
      obtain ⟨parent, hparent, rfl⟩ := Option.map_eq_some_iff.1 hplace
      obtain ⟨root, hfind⟩ := FileTree.isDirectory_iff.1 hdir
      obtain rfl := FileTree.parent?_join (no_slash_fileName key) hfind hparent
      have hlisted : fileName key ∈ cache.entryNames := by
        unfold entryNames
        cases hnames : cache.files.namesIn cache.dir with
        | error fault => simp [FileTree.namesIn, hfind] at hnames
        | ok names =>
            refine List.mem_filter.2 ⟨?_, hasExtension_fileName key⟩
            refine FileTree.mem_namesIn hfind hnames ?_
            rw [FileTree.contentAt_eq_some.1 hcontent]
            rfl
      have hgone : cache.clear.files.contentAt (parent ++ [fileName key]) = none :=
        contentAt_removeNames (segments_entryPath cache key) (ordinary_fileName key) hlisted hparent
      have hkeeps : FileTree.SameDirectories cache.files cache.clear.files :=
        (removeNames_keeps cache.dir cache.files cache.entryNames).1
      have hsame : cache.clear.place? key = cache.place? key :=
        place?_congr hkeeps (by rw [clear]) key
      rw [hsame, hplace, Option.bind_some, hgone] at hcleared
      cases hcleared

/-! ### Opening a cache anew -/

/-- **Opening a cache on a directory succeeds and changes no file.** -/
theorem mount_of_isDirectory {files : FileTree} {dir : Path} (h : files.isDirectory dir = true) :
    mount files dir = (.ok { files, dir }, files) := by
  rw [mount, FileTree.createDirectories_of_isDirectory h]

/-- A cache whose files can be written can be opened anew, and that changes no file. -/
theorem mount_of_writable (h : cache.Writable key) :
    mount cache.files cache.dir = (.ok { files := cache.files, dir := cache.dir }, cache.files) := by
  by_cases hdir : cache.dir = ""
  · rw [mount, FileTree.createDirectories, hdir]
    rfl
  · obtain ⟨place, hplace, -⟩ := h
    obtain ⟨parent, hparent, -⟩ := Option.map_eq_some_iff.1 hplace
    exact mount_of_isDirectory
      (FileTree.isDirectory_of_parent? (no_slash_fileName key) hdir hparent)

end Cache

/-! ### Histories -/

/-- A step in the life of a cache that has its directory for itself. -/
inductive CacheStep where
  /-- Bytecode is put under a key. -/
  | put (key : CacheKey) (bytecode : Bytes)
  /-- A key is asked for. -/
  | get (key : CacheKey)
  /-- What is in memory is dropped. -/
  | evict
  /-- The cache is emptied. -/
  | clear
  /-- The cache is opened anew on its directory. -/
  | reopen

namespace Cache

variable {cache : Cache}

/-- The cache after a step.  One that cannot be opened anew stays as it is. -/
def afterStep (cache : Cache) : CacheStep → Cache
  | .put key bytecode => cache.put key bytecode
  | .get key => (cache.get key).2
  | .evict => cache.evict
  | .clear => cache.clear
  | .reopen =>
      match mount cache.files cache.dir with
      | (.ok opened, _) => opened
      | (.error _, files) => { cache with files }

/-- The cache after a history. -/
def after (cache : Cache) (steps : List CacheStep) : Cache := steps.foldl afterStep cache

theorem after_concat (cache : Cache) (steps : List CacheStep) (step : CacheStep) :
    cache.after (steps ++ [step]) = (cache.after steps).afterStep step :=
  List.foldl_concat ..

/-- Opening a cache anew only drops what is in memory. -/
theorem afterStep_reopen (hdir : cache.files.isDirectory cache.dir = true) :
    cache.afterStep .reopen = { files := cache.files, dir := cache.dir } := by
  simp only [afterStep, mount_of_isDirectory hdir]

end Cache

namespace CacheStep

/-- Whether what was put under a key before a step does not matter after it: something is put under
the key, or the cache is cleared, or what is in memory is dropped and there is nothing else. -/
def Settles (key : CacheKey) (filed : Prop) : CacheStep → Prop
  | put other _ => other = key
  | get _ => False
  | clear => True
  | evict => ¬ filed
  | reopen => ¬ filed

/-- Bytecode was put under a key, and nothing that matters happened to the key since.  `filed` tells
whether the key has a file besides its entry in memory. -/
def LastPut (key : CacheKey) (filed : Prop) (steps : List CacheStep) (bytecode : Bytes) : Prop :=
  ∃ before since, steps = before ++ put key bytecode :: since ∧
    ∀ step ∈ since, ¬ step.Settles key filed

variable {key : CacheKey} {filed : Prop} {steps : List CacheStep} {step : CacheStep}
  {bytecode : Bytes}

theorem not_lastPut_nil : ¬ LastPut key filed [] bytecode := by
  rintro ⟨before, since, heq, -⟩
  simp at heq

/-- The last step puts the bytecode, or it does not matter and the bytecode was put before. -/
theorem lastPut_concat : LastPut key filed (steps ++ [step]) bytecode ↔
    step = put key bytecode ∨ ¬ step.Settles key filed ∧ LastPut key filed steps bytecode := by
  constructor
  · rintro ⟨before, since, heq, hsince⟩
    rcases List.eq_nil_or_concat' since with rfl | ⟨since, last, rfl⟩
    · obtain ⟨-, hlast⟩ := List.append_inj' heq rfl
      exact .inl (List.cons.inj hlast).1
    · rw [← List.cons_append, ← List.append_assoc] at heq
      obtain ⟨hsteps, hlast⟩ := List.append_inj' heq rfl
      obtain rfl := (List.cons.inj hlast).1
      exact .inr ⟨hsince step (by simp), before, since, hsteps,
        fun other hother => hsince other (List.mem_append_left _ hother)⟩
  · rintro (rfl | ⟨hstep, before, since, rfl, hsince⟩)
    · exact ⟨steps, [], rfl, by simp⟩
    · refine ⟨before, since ++ [step], by simp, fun other hother => ?_⟩
      rcases List.mem_append.1 hother with hold | hnew
      · exact hsince other hold
      · rw [List.mem_singleton.1 hnew]
        exact hstep

end CacheStep

namespace Cache

variable {cache : Cache} {key : CacheKey}

/-! ### One step -/

/-- What is in memory has nothing to do with the files. -/
theorem stored?_forgotten (cache : Cache) (key : CacheKey) :
    ({ files := cache.files, dir := cache.dir } : Cache).stored? key = cache.stored? key := by
  have hplace : ({ files := cache.files, dir := cache.dir } : Cache).place? key =
      cache.place? key := place?_congr (.refl _) rfl key
  rw [stored?_eq, stored?_eq, hplace]

/-- No step makes or removes a directory, and none moves the cache to another one. -/
theorem frame_afterStep (hdir : cache.files.isDirectory cache.dir = true) (step : CacheStep) :
    FileTree.SameDirectories cache.files (cache.afterStep step).files ∧
      (cache.afterStep step).dir = cache.dir := by
  cases step with
  | put key bytecode => exact ⟨sameDirectories_put cache key bytecode, by rw [afterStep, put]⟩
  | get key =>
      obtain ⟨hfiles, hsame⟩ := get_files cache key
      refine ⟨?_, hsame⟩
      rw [afterStep, hfiles]
      exact .refl _
  | evict => exact ⟨.refl _, rfl⟩
  | clear => exact ⟨(removeNames_keeps cache.dir cache.files cache.entryNames).1, rfl⟩
  | reopen =>
      rw [afterStep_reopen hdir]
      exact ⟨.refl _, rfl⟩

/-- The file of a key after a step. -/
theorem stored?_afterStep (hdir : cache.files.isDirectory cache.dir = true)
    (hwritable : cache.Writable key) (step : CacheStep) :
    (cache.afterStep step).stored? key =
      match step with
      | .put other bytecode => if key = other then some bytecode else cache.stored? key
      | .clear => none
      | _ => cache.stored? key := by
  cases step with
  | put other bytecode =>
      simp only [afterStep]
      rw [stored?_put]
      by_cases hkey : key = other
      · rw [if_pos ⟨hkey, hkey ▸ hwritable⟩, if_pos hkey]
      · rw [if_neg fun h => hkey h.1, if_neg hkey]
  | get other => exact stored?_get cache other key
  | evict => exact stored?_forgotten cache key
  | clear => exact stored?_clear hdir key
  | reopen =>
      rw [afterStep_reopen hdir]
      exact stored?_forgotten cache key

/-- A key whose file cannot be written has none. -/
theorem stored?_of_not_writable (h : ¬ cache.Writable key) : cache.stored? key = none := by
  rw [stored?_eq]
  cases hplace : cache.place? key with
  | none => rfl
  | some place =>
      have hentry : cache.files.entryAt place = some .directory := by
        by_contra hfree
        exact h ⟨place, hplace, hfree⟩
      simp [FileTree.contentAt, hentry]

/-- What is in memory for a key after a step. -/
theorem memory_afterStep (hdir : cache.files.isDirectory cache.dir = true) (step : CacheStep) :
    (cache.afterStep step).memory.get? key =
      match step with
      | .put other bytecode => if key = other then some bytecode else cache.memory.get? key
      | .get other => if key = other then cache.find? key else cache.memory.get? key
      | _ => none := by
  cases step with
  | put other bytecode => exact Table.get?_put ..
  | get other =>
      simp only [afterStep, memory_get]
      by_cases hkey : key = other
      · rw [if_pos hkey, if_pos hkey, hkey]
      · rw [if_neg hkey, if_neg hkey]
  | evict => rfl
  | clear => rfl
  | reopen => rw [afterStep_reopen hdir]; rfl

/-! ### Whole histories -/

/-- Whether a file can be written depends on the directories alone. -/
theorem writable_congr {cache' : Cache}
    (hfiles : FileTree.SameDirectories cache.files cache'.files) (hdir : cache'.dir = cache.dir) :
    cache'.Writable key ↔ cache.Writable key := by
  unfold Writable
  rw [place?_congr hfiles hdir]
  exact exists_congr fun place => and_congr_right fun _ => not_congr (hfiles place).symm

/-- A directory with the name of the file of a key keeps it from being written. -/
theorem not_writable_of_isDirectory (h : cache.files.isDirectory (cache.entryPath key) = true) :
    ¬ cache.Writable key := by
  obtain ⟨place, hfind⟩ := FileTree.isDirectory_iff.1 h
  have hsegments := segments_entryPath cache key
  obtain ⟨parent, hparent⟩ :=
    Option.isSome_iff_exists.1 (FileTree.parent?_of_find hsegments hfind)
  have hentry : cache.files.entryAt (parent ++ [fileName key]) = some .directory := by
    rw [FileTree.find_of_parent hsegments (ordinary_fileName key) hparent] at hfind
    cases hold : cache.files.entryAt (parent ++ [fileName key]) with
    | none => rw [hold] at hfind; cases hfind
    | some entry => rw [hold] at hfind; cases hfind; rfl
  rintro ⟨other, hplace, hfree⟩
  rw [place?, hparent, Option.map_some, Option.some.injEq] at hplace
  exact hfree (hplace ▸ hentry)

section History

variable (hdir : cache.files.isDirectory cache.dir = true) (steps : List CacheStep)

include hdir in
/-- No history makes or removes a directory, and none moves the cache to another one. -/
theorem frame_after :
    FileTree.SameDirectories cache.files (cache.after steps).files ∧
      (cache.after steps).dir = cache.dir ∧
      (cache.after steps).files.isDirectory (cache.after steps).dir = true := by
  induction steps using List.reverseRecOn with
  | nil => exact ⟨.refl _, rfl, hdir⟩
  | append_singleton steps step ih =>
      obtain ⟨hfiles, hsame, hthere⟩ := ih
      obtain ⟨hfiles', hsame'⟩ := frame_afterStep hthere step
      rw [after_concat]
      refine ⟨hfiles.trans hfiles', hsame'.trans hsame, ?_⟩
      rw [hsame']
      exact FileTree.isDirectory_congr hfiles' hthere

include hdir in
theorem writable_after : (cache.after steps).Writable key ↔ cache.Writable key :=
  writable_congr (frame_after hdir steps).1 (frame_after hdir steps).2.1

include hdir in
/-- **The file of a key holds what was put last under the key,** if it can be written. -/
theorem stored?_after (hvacant : cache.Vacant) (hwritable : cache.Writable key)
    (bytecode : Bytes) :
    (cache.after steps).stored? key = some bytecode ↔
      CacheStep.LastPut key (cache.Writable key) steps bytecode := by
  induction steps using List.reverseRecOn with
  | nil =>
      refine iff_of_false ?_ CacheStep.not_lastPut_nil
      have hnone : (cache.after []).stored? key = none := hvacant.2 key
      simp [hnone]
  | append_singleton steps step ih =>
      have hthere := (frame_after hdir steps).2.2
      rw [after_concat, stored?_afterStep hthere ((writable_after hdir steps).2 hwritable),
        CacheStep.lastPut_concat]
      cases step with
      | put other new =>
          by_cases hkey : key = other
          · simp [hkey, CacheStep.Settles]
          · simp [hkey, Ne.symm hkey, CacheStep.Settles, ih]
      | get other => simp [CacheStep.Settles, ih]
      | evict => simp [CacheStep.Settles, hwritable, ih]
      | clear => simp [CacheStep.Settles]
      | reopen => simp [CacheStep.Settles, hwritable, ih]

include hdir in
/-- The memory never disagrees with what was put last under a key. -/
theorem memory_after (hvacant : cache.Vacant) {bytecode : Bytes}
    (h : (cache.after steps).memory.get? key = some bytecode) :
    CacheStep.LastPut key (cache.Writable key) steps bytecode := by
  induction steps using List.reverseRecOn with
  | nil =>
      have hnone : (cache.after []).memory = Table.empty := hvacant.1
      rw [hnone] at h
      cases h
  | append_singleton steps step ih =>
      rw [after_concat, memory_afterStep (frame_after hdir steps).2.2] at h
      rw [CacheStep.lastPut_concat]
      cases step with
      | put other new =>
          dsimp only at h
          by_cases hkey : key = other
          · rw [if_pos hkey, Option.some.injEq] at h
            exact .inl (by rw [h, hkey])
          · rw [if_neg hkey] at h
            exact .inr ⟨fun heq => hkey heq.symm, ih h⟩
      | get other =>
          refine .inr ⟨id, ?_⟩
          dsimp only at h
          by_cases hkey : key = other
          · rw [if_pos hkey, find?_eq, Option.or_eq_some_iff] at h
            rcases h with hmemory | ⟨-, hstored⟩
            · exact ih hmemory
            · -- Only a file that can be written can have been read into memory.
              have hwritable : cache.Writable key := by
                by_contra hclosed
                rw [← writable_after hdir steps] at hclosed
                rw [stored?_of_not_writable hclosed] at hstored
                cases hstored
              exact (stored?_after hdir steps hvacant hwritable bytecode).1 hstored
          · rw [if_neg hkey] at h
            exact ih h
      | evict => cases h
      | clear => cases h
      | reopen => cases h

include hdir in
/-- A key whose file cannot be written is in memory with what was put last under it. -/
theorem memory_after_of_not_writable (hclosed : ¬ cache.Writable key) {bytecode : Bytes}
    (h : CacheStep.LastPut key (cache.Writable key) steps bytecode) :
    (cache.after steps).memory.get? key = some bytecode := by
  induction steps using List.reverseRecOn with
  | nil => exact absurd h CacheStep.not_lastPut_nil
  | append_singleton steps step ih =>
      rw [after_concat, memory_afterStep (frame_after hdir steps).2.2]
      rcases CacheStep.lastPut_concat.1 h with rfl | ⟨hstep, hbefore⟩
      · exact if_pos rfl
      · have hmemory := ih hbefore
        cases step with
        | put other new =>
            have hkey : key ≠ other := fun heq => hstep heq.symm
            exact (if_neg hkey).trans hmemory
        | get other =>
            by_cases hkey : key = other
            · simp [hkey, find?_eq, hkey ▸ hmemory]
            · simp [hkey, hmemory]
        | evict => exact absurd hclosed hstep
        | clear => exact absurd trivial hstep
        | reopen => exact absurd hclosed hstep

end History

/-- **A cache finds what was put last, and nothing else.**  Let a cache stand on a directory in
which no key has a file, and let nobody else write there.

* After any history, a key is found with what was put under it last, if nothing that matters
  happened since, and else it is not found.  For a key whose file can be written only clearing
  matters; for any other key dropping what is in memory, or opening the cache anew, matters too.
* A key is of the second kind if a directory has the name of its file.
* Different keys have different files.
* The cache can always be opened anew. -/
theorem get_after_eq_some_iff (hvacant : cache.Vacant)
    (hdir : cache.files.isDirectory cache.dir = true) (steps : List CacheStep) :
    (∀ key bytecode, ((cache.after steps).get key).1 = some bytecode ↔
        CacheStep.LastPut key (cache.Writable key) steps bytecode) ∧
      (∀ key, cache.files.isDirectory (cache.entryPath key) = true → ¬ cache.Writable key) ∧
      Function.Injective cache.entryPath ∧
      ∃ opened files, mount (cache.after steps).files cache.dir = (.ok opened, files) := by
  refine ⟨fun key bytecode => ?_, fun _ => not_writable_of_isDirectory,
    fun _ _ => entryPath_inj.1, ?_⟩
  · rw [get_fst, find?_eq]
    by_cases hwritable : cache.Writable key
    · rw [← stored?_after hdir steps hvacant hwritable]
      cases hmemory : (cache.after steps).memory.get? key with
      | none => rw [Option.none_or]
      | some found =>
          have hlast := memory_after hdir steps hvacant hmemory
          rw [(stored?_after hdir steps hvacant hwritable found).2 hlast]
          rfl
    · have hclosed := fun h => hwritable ((writable_after hdir steps).1 h)
      rw [stored?_of_not_writable hclosed, Option.or_none]
      exact ⟨memory_after hdir steps hvacant,
        memory_after_of_not_writable hdir steps hwritable⟩
  · obtain ⟨-, hsame, hthere⟩ := frame_after hdir steps
    exact ⟨_, _, mount_of_isDirectory (hsame ▸ hthere)⟩

/-- A new cache among directories alone is vacant. -/
theorem vacant_of_directories (hmemory : cache.memory = Table.empty)
    (h : ∀ row ∈ cache.files.entries.rows, row.2 = .directory) : cache.Vacant := by
  refine ⟨hmemory, fun key => ?_⟩
  rw [stored?_eq]
  cases cache.place? key with
  | none => rfl
  | some place =>
      rw [Option.bind_some]
      refine Option.eq_none_iff_forall_ne_some.2 fun bytecode hcontent => ?_
      have hentry := FileTree.contentAt_eq_some.1 hcontent
      unfold FileTree.entryAt at hentry
      split at hentry
      · cases hentry
      · cases h _ (mem_of_lookup hentry)

/-- Two keys, one of which has a directory in the place of its file. -/
theorem get_after_eq_some_iff_occupied :
    let free : CacheKey := ⟨List.replicate 32 1, List.length_replicate⟩
    let occupied : CacheKey := ⟨List.replicate 32 0, List.length_replicate⟩
    let made := (FileTree.empty.createDirectories "cache").2
    let cache : Cache :=
      { files := (made.createDirectories (Path.join "cache" (fileName occupied))).2
        dir := "cache" }
    let steps : List CacheStep := [.put free [1], .put occupied [2], .put free [3]]
    cache.Vacant ∧ cache.files.isDirectory cache.dir = true ∧
      ((cache.after (steps ++ [.evict, .reopen])).get free).1 = some [3] ∧
      ((cache.after steps).get occupied).1 = some [2] ∧
      ((cache.after (steps ++ [.evict])).get occupied).1 = none := by
  intro free occupied made cache steps
  obtain ⟨hdirectories, hdir, hsquat, hplace, hfree⟩ :
      (∀ row ∈ cache.files.entries.rows, row.2 = .directory) ∧
        cache.files.isDirectory cache.dir = true ∧
        cache.files.isDirectory (cache.entryPath occupied) = true ∧
        cache.place? free = some ["cache", fileName free] ∧
        cache.files.entryAt ["cache", fileName free] ≠ some .directory := by
    decide +kernel
  have hvacant : cache.Vacant := vacant_of_directories rfl hdirectories
  have hwritable : cache.Writable free := ⟨_, hplace, hfree⟩
  have hne : free ≠ occupied := by decide
  -- from here on the cache is any that has these properties
  clear_value cache
  refine ⟨hvacant, hdir, ?_, ?_, ?_⟩
  · refine ((get_after_eq_some_iff hvacant hdir _).1 free [3]).2
      ⟨[.put free [1], .put occupied [2]], [.evict, .reopen], rfl, ?_⟩
    simp [CacheStep.Settles, hwritable]
  · refine ((get_after_eq_some_iff hvacant hdir _).1 occupied [2]).2
      ⟨[.put free [1]], [.put free [3]], rfl, ?_⟩
    simp [CacheStep.Settles, hne]
  · obtain ⟨hfound, hclosed, -⟩ := get_after_eq_some_iff hvacant hdir (steps ++ [.evict])
    refine Option.eq_none_iff_forall_ne_some.2 fun bytecode hget => ?_
    -- The last step settles what is in memory alone.
    rcases CacheStep.lastPut_concat.1 ((hfound occupied bytecode).1 hget) with heq | ⟨hstep, -⟩
    · cases heq
    · exact hstep (hclosed occupied hsquat)

end Cache

end Shaderworks
