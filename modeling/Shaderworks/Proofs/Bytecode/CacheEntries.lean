/-
**A cache key by key.**

Each key has an entry in memory and one place in the directory, and no operation on one key touches
the place of another.  So a cache can be looked at key by key: every operation says what it does to
the entry of a key and to the file at its place.

Main definitions:

* `Cache.place?` — where the file of a key stands or would stand;
* `Cache.Writable` — whether the file of a key can be written;
* `Cache.Vacant` — a cache without entries;
* `Cache.Holds` — all entries of a cache have some property.

Main results:

* `Cache.place?_injective` — different keys have different places;
* `Cache.stored?_put`, `Cache.find?_put` — what is in the directory, and what is found, after
  bytecode was put under a key;
* `Cache.memory_get`, `Cache.find?_get` — the same after a look-up;
* `Cache.stored?_of_clear` — clearing brings nothing into the directory;
* `Cache.vacant_of_namesIn`, `Cache.writable_of_namesIn` — a cache on an empty directory is vacant,
  and every key can be written.
-/

import Shaderworks.Bytecode.Cache
import Shaderworks.Proofs.Files.Frame

set_option autoImplicit false

namespace Shaderworks

/-! ### The names of the files -/

namespace Bytes

theorem hexDigit_plain : ∀ n < 16, hexDigit n ≠ '/' ∧ (hexDigit n).utf8Size = 1 := by decide

theorem mem_hexDigits {bytes : Bytes} {c : Char} (h : c ∈ hexDigits bytes) :
    ∃ n < 16, c = hexDigit n := by
  obtain ⟨b, _, hc⟩ := List.mem_flatMap.1 h
  have hlt : b.toNat < 256 := b.toNat_lt
  simp only [List.mem_cons, List.not_mem_nil, or_false] at hc
  rcases hc with rfl | rfl
  · exact ⟨b.toNat / 16, by omega, rfl⟩
  · exact ⟨b.toNat % 16, by omega, rfl⟩

theorem length_hexDigits (bytes : Bytes) : (hexDigits bytes).length = 2 * bytes.length := by
  induction bytes with
  | nil => rfl
  | cons b rest ih =>
      have hcons : hexDigits (b :: rest) =
          [hexDigit (b.toNat / 16), hexDigit (b.toNat % 16)] ++ hexDigits rest := by
        simp [hexDigits]
      rw [hcons, List.length_append, ih]
      simp
      omega

end Bytes

/-- A text of characters of one byte each is as long in bytes as in characters. -/
theorem Text.utf8ByteSize_ofList {cs : List Char} (h : ∀ c ∈ cs, c.utf8Size = 1) :
    (String.ofList cs).utf8ByteSize = cs.length := by
  induction cs with
  | nil => rfl
  | cons c cs ih =>
      have hcons : String.ofList (c :: cs) = String.singleton c ++ String.ofList cs := by
        rw [String.singleton_eq_ofList, ← String.ofList_append, List.singleton_append]
      rw [hcons, String.utf8ByteSize_append, String.utf8ByteSize_singleton,
        h c (List.mem_cons_self ..), ih fun d hd => h d (List.mem_cons_of_mem _ hd)]
      simp [Nat.add_comm]

namespace Cache

variable {cache : Cache} {key other : CacheKey}

theorem fileName_eq (key : CacheKey) :
    fileName key = String.ofList (Bytes.hexDigits key.bytes ++ ".spv".toList) := by
  have hext : "." ++ cacheExtension = ".spv" := by decide
  rw [String.ofList_append, String.ofList_toList, fileName, CacheKey.hex, Bytes.hex,
    String.append_assoc, hext]

theorem toList_fileName (key : CacheKey) :
    (fileName key).toList = Bytes.hexDigits key.bytes ++ ".spv".toList := by
  rw [fileName_eq, String.toList_ofList]

theorem fileName_injective (h : fileName key = fileName other) : key = other := by
  have hlist := congrArg String.toList h
  simp only [fileName, String.toList_append] at hlist
  have hhex := List.append_cancel_right (List.append_cancel_right hlist)
  exact CacheKey.hex_inj.1 (String.toList_injective hhex)

theorem no_slash_fileName (key : CacheKey) : '/' ∉ (fileName key).toList := by
  rw [toList_fileName]
  intro h
  rcases List.mem_append.1 h with h | h
  · obtain ⟨n, hn, heq⟩ := Bytes.mem_hexDigits h
    exact (Bytes.hexDigit_plain n hn).1 heq.symm
  · revert h; decide

theorem no_nul_fileName (key : CacheKey) : '\x00' ∉ (fileName key).toList := by
  have hdigit : ∀ n < 16, Bytes.hexDigit n ≠ '\x00' := by decide
  rw [toList_fileName]
  intro h
  rcases List.mem_append.1 h with h | h
  · obtain ⟨n, hn, heq⟩ := Bytes.mem_hexDigits h
    exact hdigit n hn heq.symm
  · revert h; decide

theorem utf8ByteSize_fileName (key : CacheKey) : (fileName key).utf8ByteSize = 68 := by
  have hbytes : ∀ c ∈ Bytes.hexDigits key.bytes ++ ".spv".toList, c.utf8Size = 1 := by
    intro c hc
    rcases List.mem_append.1 hc with hc | hc
    · obtain ⟨n, hn, rfl⟩ := Bytes.mem_hexDigits hc
      exact (Bytes.hexDigit_plain n hn).2
    · have hextension : ".spv".toList = ['.', 's', 'p', 'v'] := rfl
      simp only [hextension, List.mem_cons, List.not_mem_nil, or_false] at hc
      rcases hc with rfl | rfl | rfl | rfl <;> rfl
  rw [fileName_eq, Text.utf8ByteSize_ofList hbytes, List.length_append, Bytes.length_hexDigits,
    key.length_eq]
  rfl

/-- The name of a cache file is a name like any other. -/
theorem ordinary_fileName (key : CacheKey) : FileTree.OrdinaryName (fileName key) := by
  have hsize := utf8ByteSize_fileName key
  refine ⟨?_, ?_, ?_, by rw [hsize]; decide⟩
  all_goals
    intro heq
    rw [heq] at hsize
    exact absurd hsize (by decide)

theorem segments_entryPath (cache : Cache) (key : CacheKey) :
    (cache.entryPath key).segments = Path.frontSegments cache.dir ++ [fileName key] :=
  Path.segments_join (no_slash_fileName key)

/-! ### Places -/

/-- Where the file of a key stands, or would stand if it was written. -/
def place? (cache : Cache) (key : CacheKey) : Option Place :=
  (cache.files.parent? (cache.entryPath key)).map fun parent => parent ++ [fileName key]

/-- Different keys have different places. -/
theorem place?_injective {place : Place} (h : cache.place? key = some place)
    (h' : cache.place? other = some place) : key = other := by
  unfold place? at h h'
  obtain ⟨p, -, rfl⟩ := Option.map_eq_some_iff.1 h
  obtain ⟨q, -, hq⟩ := Option.map_eq_some_iff.1 h'
  have hlast := congrArg List.getLast? hq
  simp only [List.getLast?_concat, Option.some.injEq] at hlast
  exact fileName_injective hlast.symm

/-- The places depend on the directories alone. -/
theorem place?_congr {cache' : Cache} (hfiles : FileTree.SameDirectories cache.files cache'.files)
    (hdir : cache'.dir = cache.dir) (key : CacheKey) : cache'.place? key = cache.place? key := by
  unfold place? entryPath
  rw [hdir, FileTree.parent?_congr hfiles]

/-- What the directory has for a key is the content of the file at its place. -/
theorem stored?_eq (cache : Cache) (key : CacheKey) :
    cache.stored? key = (cache.place? key).bind cache.files.contentAt := by
  have hread := FileTree.read_eq (t := cache.files) (segments_entryPath cache key)
    (ordinary_fileName key)
  have hstored : cache.stored? key = (cache.files.read (cache.entryPath key)).toOption := by
    unfold stored?
    cases cache.files.read (cache.entryPath key) <;> rfl
  rw [hstored, hread, place?]
  cases cache.files.parent? (cache.entryPath key) <;> rfl

/-- Whether the file of a key can be written: its directory is there, and no directory has its
name. -/
def Writable (cache : Cache) (key : CacheKey) : Prop :=
  ∃ place, cache.place? key = some place ∧ cache.files.entryAt place ≠ some .directory

/-- Putting bytecode under a key writes the file at its place, or no file at all. -/
theorem files_put (cache : Cache) (key : CacheKey) (bytecode : Bytes) :
    (∃ place, cache.place? key = some place ∧ cache.files.entryAt place ≠ some .directory ∧
      (cache.put key bytecode).files = cache.files.set place (.file bytecode)) ∨
    ¬ cache.Writable key ∧ (cache.put key bytecode).files = cache.files := by
  have hwrite := FileTree.write_eq (t := cache.files) (segments_entryPath cache key)
    (ordinary_fileName key) bytecode
  have hput : (cache.put key bytecode).files =
      (cache.files.write (cache.entryPath key) bytecode).toOption.getD cache.files := rfl
  rw [hput, hwrite]
  cases hparent : cache.files.parent? (cache.entryPath key) with
  | none =>
      refine .inr ⟨?_, rfl⟩
      rintro ⟨place, hplace, -⟩
      simp [place?, hparent] at hplace
  | some parent =>
      have hplace : cache.place? key = some (parent ++ [fileName key]) := by
        simp [place?, hparent]
      by_cases hdir : cache.files.entryAt (parent ++ [fileName key]) = some .directory
      · refine .inr ⟨?_, by simp [hdir]⟩
        rintro ⟨place, hplace', hfree⟩
        rw [hplace, Option.some.injEq] at hplace'
        exact hfree (hplace' ▸ hdir)
      · exact .inl ⟨_, hplace, hdir, by simp [hdir]⟩

theorem sameDirectories_put (cache : Cache) (key : CacheKey) (bytecode : Bytes) :
    FileTree.SameDirectories cache.files (cache.put key bytecode).files := by
  rcases files_put cache key bytecode with ⟨place, -, hfree, hfiles⟩ | ⟨-, hfiles⟩
  · rw [hfiles]; exact FileTree.sameDirectories_set hfree bytecode
  · rw [hfiles]; exact .refl _

theorem place?_put (cache : Cache) (key : CacheKey) (bytecode : Bytes) (other : CacheKey) :
    (cache.put key bytecode).place? other = cache.place? other :=
  place?_congr (sameDirectories_put cache key bytecode) rfl other

/-! ### The directory after each operation -/

open Classical in
/-- After bytecode was put under a key the directory has it for that key, if it can be written, and
for every other key what it had. -/
theorem stored?_put (cache : Cache) (key : CacheKey) (bytecode : Bytes) (other : CacheKey) :
    (cache.put key bytecode).stored? other =
      if other = key ∧ cache.Writable key then some bytecode else cache.stored? other := by
  rw [stored?_eq, stored?_eq cache, place?_put]
  rcases files_put cache key bytecode with ⟨place, hplace, hfree, hfiles⟩ | ⟨hclosed, hfiles⟩
  · have hroot : place ≠ [] := fun heq => hfree (heq ▸ FileTree.entryAt_root _)
    have hwritable : cache.Writable key := ⟨place, hplace, hfree⟩
    rw [hfiles]
    by_cases ho : other = key
    · rw [if_pos ⟨ho, hwritable⟩, ho, hplace, Option.bind_some, FileTree.contentAt_set hroot,
        if_pos rfl]
    · rw [if_neg fun h => ho h.1]
      cases hother : cache.place? other with
      | none => rfl
      | some place' =>
          -- The file was written at the place of another key.
          have hne : place' ≠ place := fun heq => ho (place?_injective hother (heq ▸ hplace))
          rw [Option.bind_some, Option.bind_some, FileTree.contentAt_set hroot, if_neg hne]
  · rw [hfiles, if_neg fun h => hclosed h.2]

/-- A look-up writes no file. -/
theorem get_files (cache : Cache) (key : CacheKey) :
    (cache.get key).2.files = cache.files ∧ (cache.get key).2.dir = cache.dir := by
  unfold get
  cases cache.memory.get? key with
  | some bytecode => exact ⟨rfl, rfl⟩
  | none => cases cache.stored? key <;> exact ⟨rfl, rfl⟩

theorem stored?_get (cache : Cache) (key other : CacheKey) :
    (cache.get key).2.stored? other = cache.stored? other := by
  obtain ⟨hfiles, hdir⟩ := get_files cache key
  unfold stored? entryPath
  rw [hfiles, hdir]

/-- Removing files by name only takes files away. -/
theorem removeNames_keeps (dir : Path) (files : FileTree) (names : List String) :
    FileTree.SameDirectories files (removeNames dir files names) ∧
      ∀ place entry, (removeNames dir files names).entryAt place = some entry →
        files.entryAt place = some entry := by
  induction names generalizing files with
  | nil => exact ⟨.refl _, fun _ _ h => h⟩
  | cons name names ih =>
      obtain ⟨hdirs, hentries⟩ :=
        ih ((files.remove (Path.join dir name)).toOption.getD files)
      have hstep : removeNames dir files (name :: names) =
          removeNames dir ((files.remove (Path.join dir name)).toOption.getD files) names := rfl
      rw [hstep]
      cases hremove : files.remove (Path.join dir name) with
      | error fault =>
          rw [hremove] at hdirs hentries
          exact ⟨hdirs, hentries⟩
      | ok fewer =>
          rw [hremove] at hdirs hentries
          obtain ⟨place, content, hfile, rfl⟩ := FileTree.remove_eq_ok hremove
          have hfree : files.entryAt place ≠ some .directory := by rw [hfile]; simp
          have hroot : place ≠ [] := fun heq => hfree (heq ▸ FileTree.entryAt_root _)
          refine ⟨(FileTree.sameDirectories_unset hfree).trans hdirs, fun other entry h => ?_⟩
          have hother := hentries other entry h
          simp only [Except.toOption, Option.getD_some, FileTree.entryAt_unset hroot] at hother
          split at hother
          · cases hother
          · exact hother

/-- Clearing brings nothing into the directory. -/
theorem stored?_of_clear {bytecode : Bytes} (h : cache.clear.stored? key = some bytecode) :
    cache.stored? key = some bytecode := by
  have hfiles : cache.clear.files = removeNames cache.dir cache.files cache.entryNames := rfl
  obtain ⟨hdirs, hentries⟩ := removeNames_keeps cache.dir cache.files cache.entryNames
  rw [← hfiles] at hdirs hentries
  have hplace : cache.clear.place? key = cache.place? key := place?_congr hdirs rfl key
  rw [stored?_eq, hplace] at h
  rw [stored?_eq]
  obtain ⟨place, hp, hcontent⟩ := Option.bind_eq_some_iff.1 h
  rw [hp, Option.bind_some, FileTree.contentAt_eq_some]
  exact hentries place _ (FileTree.contentAt_eq_some.1 hcontent)

/-! ### What is found after each operation -/

theorem find?_eq (cache : Cache) (key : CacheKey) :
    cache.find? key = (cache.memory.get? key).or (cache.stored? key) := by
  unfold find?
  cases cache.memory.get? key <;> rfl

/-- A look-up takes what it finds into memory, and leaves the memory of other keys alone. -/
theorem memory_get (cache : Cache) (key other : CacheKey) :
    (cache.get key).2.memory.get? other =
      if other = key then cache.find? key else cache.memory.get? other := by
  unfold get find?
  cases hmemory : cache.memory.get? key with
  | some bytecode =>
      by_cases ho : other = key
      · simp [ho, hmemory]
      · simp [ho]
  | none =>
      cases cache.stored? key with
      | some bytecode => simp [Table.get?_put]
      | none =>
          by_cases ho : other = key
          · simp [ho, hmemory]
          · simp [ho]

/-- A look-up does not change what is found. -/
theorem find?_get (cache : Cache) (key other : CacheKey) :
    (cache.get key).2.find? other = cache.find? other := by
  rw [find?_eq, memory_get, stored?_get]
  by_cases ho : other = key
  · rw [if_pos ho, ho, find?_eq]
    cases cache.memory.get? key <;> cases cache.stored? key <;> rfl
  · rw [if_neg ho, ← find?_eq]

/-- After bytecode was put under a key it is found there, and under every other key what was. -/
theorem find?_put (cache : Cache) (key : CacheKey) (bytecode : Bytes) (other : CacheKey) :
    (cache.put key bytecode).find? other =
      if other = key then some bytecode else cache.find? other := by
  have hmemory : (cache.put key bytecode).memory = cache.memory.put key bytecode := rfl
  rw [find?_eq, hmemory, Table.get?_put, stored?_put]
  by_cases ho : other = key
  · simp [ho]
  · simp [ho, find?_eq]

/-! ### All entries at once -/

/-- A cache without entries: nothing is in memory, and no key has a file. -/
def Vacant (cache : Cache) : Prop :=
  cache.memory = Table.empty ∧ ∀ key, cache.stored? key = none

/-- All entries of a cache, in memory and in the directory, have a property. -/
def Holds (P : CacheKey → Bytes → Prop) (cache : Cache) : Prop :=
  ∀ key bytecode, cache.memory.get? key = some bytecode ∨ cache.stored? key = some bytecode →
    P key bytecode

namespace Holds

variable {P : CacheKey → Bytes → Prop}

theorem of_vacant (h : cache.Vacant) : cache.Holds P := by
  rintro key bytecode (hmemory | hstored)
  · rw [h.1] at hmemory; cases hmemory
  · rw [h.2] at hstored; cases hstored

/-- What is found is an entry. -/
theorem found (h : cache.Holds P) {bytecode : Bytes} (hfind : cache.find? key = some bytecode) :
    P key bytecode := by
  rw [find?_eq, Option.or_eq_some_iff] at hfind
  rcases hfind with hmemory | ⟨-, hstored⟩
  · exact h _ _ (.inl hmemory)
  · exact h _ _ (.inr hstored)

theorem get (h : cache.Holds P) (key : CacheKey) : (cache.get key).2.Holds P := by
  rintro other bytecode (hmemory | hstored)
  · rw [memory_get] at hmemory
    split at hmemory
    · next ho => exact ho ▸ h.found hmemory
    · exact h _ _ (.inl hmemory)
  · rw [stored?_get] at hstored
    exact h _ _ (.inr hstored)

theorem put (h : cache.Holds P) {bytecode : Bytes} (hnew : P key bytecode) :
    (cache.put key bytecode).Holds P := by
  rintro other found (hmemory | hstored)
  · have hput : (cache.put key bytecode).memory = cache.memory.put key bytecode := rfl
    rw [hput, Table.get?_put] at hmemory
    split at hmemory
    · next ho => cases hmemory; exact ho ▸ hnew
    · exact h _ _ (.inl hmemory)
  · rw [stored?_put] at hstored
    split at hstored
    · next ho => cases hstored; exact ho.1 ▸ hnew
    · exact h _ _ (.inr hstored)

theorem evict (h : cache.Holds P) : cache.evict.Holds P := by
  rintro key bytecode (hmemory | hstored)
  · cases hmemory
  · exact h _ _ (.inr hstored)

theorem clear (h : cache.Holds P) : cache.clear.Holds P := by
  rintro key bytecode (hmemory | hstored)
  · cases hmemory
  · exact h _ _ (.inr (stored?_of_clear hstored))

end Holds

/-- A cache on an empty directory is vacant. -/
theorem vacant_of_namesIn (hmemory : cache.memory = Table.empty)
    (hnames : cache.files.namesIn cache.dir = .ok []) : cache.Vacant := by
  refine ⟨hmemory, fun key => ?_⟩
  obtain ⟨place, hfind⟩ := FileTree.find_of_namesIn hnames
  cases hstored : cache.stored? key with
  | none => rfl
  | some bytecode =>
      rw [stored?_eq] at hstored
      obtain ⟨p, hplace, hcontent⟩ := Option.bind_eq_some_iff.1 hstored
      obtain ⟨parent, hparent, rfl⟩ := Option.map_eq_some_iff.1 hplace
      have heq := FileTree.parent?_join (no_slash_fileName key) hfind hparent
      have hentry := FileTree.contentAt_eq_some.1 hcontent
      have hlisted : fileName key ∈ ([] : List String) :=
        FileTree.mem_namesIn hfind hnames (by rw [← heq, hentry]; rfl)
      exact absurd hlisted List.not_mem_nil

/-- In a new directory every key can be written, if the paths are not too long. -/
theorem writable_of_namesIn (hnul : '\x00' ∉ cache.dir.toList)
    (hsize : cache.dir.utf8ByteSize + 69 < FileTree.maxPathBytes)
    (hnames : cache.files.namesIn cache.dir = .ok []) (key : CacheKey) : cache.Writable key := by
  obtain ⟨place, hfind⟩ := FileTree.find_of_namesIn hnames
  have hfault : FileTree.pathFault? (cache.entryPath key) = none := by
    refine FileTree.pathFault?_join (no_slash_fileName key) (ordinary_fileName key).1 hnul
      (no_nul_fileName key) ?_
    rw [utf8ByteSize_fileName]
    omega
  have hparent : cache.files.parent? (cache.entryPath key) = some place := by
    refine FileTree.parent?_of_walk hfault ?_ (FileTree.find_eq_ok hfind).2.2
    rw [segments_entryPath, List.dropLast_concat]
    exact FileTree.walk_frontSegments hfind
  refine ⟨place ++ [fileName key], by rw [place?, hparent]; rfl, fun hdirectory => ?_⟩
  have hlisted : fileName key ∈ ([] : List String) :=
    FileTree.mem_namesIn hfind hnames (by rw [hdirectory]; rfl)
  cases hlisted

end Cache

end Shaderworks
