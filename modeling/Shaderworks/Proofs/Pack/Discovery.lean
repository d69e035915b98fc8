/-
**Which packs a directory holds.**

The packs of a directory are those that can be loaded from a subdirectory with a manifest or from an
archive in it, by ascending name.  A pack depends on what lies at and below its own name, so entries
that yield no pack can come and go, and the order in which the directory is listed does not matter
either, because the names are put in order and no two are equal.

Main definitions:

* `packAt?` — the pack under a name in a directory;
* `Candidate` — the names that look like packs;
* `Found` — a candidate that can be loaded, with its pack.

Main results:

* `filterMap_eq_of_ascending` — what ascending names yield is determined by which name yields what;
* `found_iff_listed` — what is found is what the listing leads to;
* `loadPath_congr` — a pack depends on what lies at and below its name alone;
* `discover_eq_of_found_iff` — **a directory holds the same packs where the same is found.**
-/

import Shaderworks.Proofs.Files.Listing
import Shaderworks.Proofs.Pack.Confinement
import Mathlib.Data.List.Basic

set_option autoImplicit false

namespace Shaderworks

variable {manifestName : String} {files files' : FileTree} {dir : Path} {place place' : Place}
  {name : String} {pack : Pack} {names : List String}

/-! ### Ascending names -/

/-- Ascending lists with the same names are the same. -/
theorem eq_of_ascending {l l' : List String} (h : l.Pairwise (· < ·)) (h' : l'.Pairwise (· < ·))
    (hmem : ∀ name, name ∈ l ↔ name ∈ l') : l = l' := by
  have hperm : l.Perm l' :=
    (List.perm_ext_iff_of_nodup (NameMap.nodup_of_ascending h)
      (NameMap.nodup_of_ascending h')).2 hmem
  exact hperm.eq_of_pairwise (fun a b _ _ hab hba => absurd hba (String.lt_asymm hab)) h h'

/-- **What ascending names yield is determined by which name yields what.** -/
theorem filterMap_eq_of_ascending {α : Type} {l l' : List String} {f f' : String → Option α}
    (h : l.Pairwise (· < ·)) (h' : l'.Pairwise (· < ·))
    (hsame : ∀ name value, name ∈ l ∧ f name = some value ↔ name ∈ l' ∧ f' name = some value) :
    l.filterMap f = l'.filterMap f' := by
  have hkept : l.filter (fun name => (f name).isSome) = l'.filter fun name => (f' name).isSome := by
    refine eq_of_ascending (h.filter _) (h'.filter _) fun name => ?_
    simp only [List.mem_filter, Option.isSome_iff_exists]
    constructor
    · rintro ⟨hmem, value, hvalue⟩
      obtain ⟨hmem', hvalue'⟩ := (hsame name value).1 ⟨hmem, hvalue⟩
      exact ⟨hmem', value, hvalue'⟩
    · rintro ⟨hmem', value, hvalue'⟩
      obtain ⟨hmem, hvalue⟩ := (hsame name value).2 ⟨hmem', hvalue'⟩
      exact ⟨hmem, value, hvalue⟩
  have hdrop : ∀ (l : List String) (f : String → Option α),
      l.filterMap f = (l.filter fun name => (f name).isSome).filterMap f := by
    intro l f
    rw [List.filterMap_filter]
    refine List.filterMap_congr fun name _ => ?_
    cases f name <;> rfl
  rw [hdrop l f, hdrop l' f', ← hkept]
  refine List.filterMap_congr fun name hname => ?_
  obtain ⟨hmem, hsome⟩ := List.mem_filter.1 hname
  obtain ⟨value, hvalue⟩ := Option.isSome_iff_exists.1 hsome
  rw [hvalue, ((hsame name value).1 ⟨hmem, hvalue⟩).2]

/-- Names without repetition are put in order. -/
theorem ascending_mergeSort (h : names.Nodup) :
    (names.mergeSort fun a b => decide (a ≤ b)).Pairwise (· < ·) := by
  have htrans : ∀ a b c : String, decide (a ≤ b) = true → decide (b ≤ c) = true →
      decide (a ≤ c) = true := by
    intro a b c hab hbc
    exact decide_eq_true (String.le_trans (of_decide_eq_true hab) (of_decide_eq_true hbc))
  have htotal : ∀ a b : String, (decide (a ≤ b) || decide (b ≤ a)) = true := by
    intro a b
    simpa using String.le_total a b
  have hnodup := (List.mergeSort_perm names fun a b => decide (a ≤ b)).nodup_iff.2 h
  refine ((List.pairwise_mergeSort htrans htotal names).and hnodup).imp fun {a b} hab => ?_
  exact NameMap.lt_of_not_lt_of_ne (String.not_lt.2 (of_decide_eq_true hab.1)) hab.2.symm

/-! ### Packs by name -/

/-- The pack under a name in a directory, if it can be loaded. -/
def packAt? (manifestName : String) (files : FileTree) (dir : Path) (name : String) : Option Pack :=
  (loadPath manifestName files (Path.join dir name)).toOption

/-- A name in a directory looks like a pack: it is that of a subdirectory with a manifest, or that of a
regular file with the extension of archives. -/
def Candidate (manifestName : String) (files : FileTree) (dir : Path) (place : Place)
    (name : String) : Prop :=
  (files.entryAt (place ++ [name]) = some .directory ∧
      files.isFile (Path.join (Path.join dir name) manifestName) = true) ∨
    ((∃ content, files.entryAt (place ++ [name]) = some (.file content)) ∧
      Path.hasExtension name "zip" = true)

/-- A candidate can be loaded, and this is its pack. -/
def Found (manifestName : String) (files : FileTree) (dir : Path) (place : Place) (name : String)
    (pack : Pack) : Prop :=
  Candidate manifestName files dir place name ∧
    loadPath manifestName files (Path.join dir name) = .ok pack

theorem packAt?_eq_some_iff :
    packAt? manifestName files dir name = some pack ↔
      loadPath manifestName files (Path.join dir name) = .ok pack := by
  unfold packAt?
  cases loadPath manifestName files (Path.join dir name) <;> simp [Except.toOption]

/-- The packs among some names are those that the candidates by ascending name yield. -/
theorem packsNamed_eq (manifestName : String) (files : FileTree) (dir : Path) (h : names.Nodup) :
    ∃ sorted : List String, sorted.Pairwise (· < ·) ∧
      (∀ name, name ∈ sorted ↔ name ∈ names ∧ isCandidate manifestName files dir name = true) ∧
      packsNamed manifestName files dir names =
        sorted.filterMap (packAt? manifestName files dir) :=
  ⟨_, ascending_mergeSort (h.filter _), fun name => by rw [List.mem_mergeSort, List.mem_filter], rfl⟩

/-! ### What is found -/

/-- A path from which a pack is loaded can be followed. -/
theorem pathFault?_of_loadPath {path : Path} (h : loadPath manifestName files path = .ok pack) :
    FileTree.pathFault? path = none := by
  cases hfault : FileTree.pathFault? path with
  | none => rfl
  | some fault =>
      have hfind : files.find path = .error fault := by rw [FileTree.find, FileTree.locate, hfault]
      simp [loadPath, PackFiles.ofPath, FileTree.isDirectory, FileTree.read, hfind] at h

/-- **What is found is what the listing leads to.** -/
theorem found_iff_listed (hnamed : files.Named) (hfind : files.find dir = .ok (place, .directory))
    (hnames : files.namesIn dir = .ok names) :
    (name ∈ names ∧ isCandidate manifestName files dir name = true) ∧
        packAt? manifestName files dir name = some pack ↔
      Found manifestName files dir place name pack := by
  rw [packAt?_eq_some_iff, Found]
  refine and_congr_left fun hload => ?_
  have hfollowed := pathFault?_of_loadPath hload
  rw [FileTree.mem_namesIn_iff hfind hnames, isCandidate, Candidate]
  constructor
  · rintro ⟨hsome, hlooks⟩
    have hname := hnamed place name hsome
    split_ifs at hlooks with hdir
    · exact .inl ⟨((FileTree.isDirectory_join_iff hname hfind).1 hdir).2, hlooks⟩
    · obtain ⟨hfile, hzip⟩ := Bool.and_eq_true_iff.1 hlooks
      exact .inr ⟨((FileTree.isFile_join_iff hname hfind).1 hfile).2, hzip⟩
  · rintro (⟨hentry, hmanifest⟩ | ⟨⟨content, hentry⟩, hzip⟩)
    · have hsome : (files.entryAt (place ++ [name])).isSome = true := by rw [hentry]; rfl
      have hname := hnamed place name hsome
      rw [if_pos ((FileTree.isDirectory_join_iff hname hfind).2 ⟨hfollowed, hentry⟩)]
      exact ⟨hsome, hmanifest⟩
    · have hsome : (files.entryAt (place ++ [name])).isSome = true := by rw [hentry]; rfl
      have hname := hnamed place name hsome
      have hfile := (FileTree.isFile_join_iff hname hfind).2 ⟨hfollowed, content, hentry⟩
      have hdir : ¬ files.isDirectory (Path.join dir name) = true := by
        rw [FileTree.isDirectory_join_iff hname hfind, hentry]
        simp
      rw [if_neg hdir, hfile, hzip]
      exact ⟨hsome, rfl⟩

/-! ### What a pack depends on -/

/-- What a name leads to is what stands under it, in each of two trees. -/
theorem read_join_congr (hname : FileTree.IsName name)
    (hfind : files.find dir = .ok (place, .directory))
    (hfind' : files'.find dir = .ok (place', .directory))
    (hentry : files.entryAt (place ++ [name]) = files'.entryAt (place' ++ [name])) :
    files.read (Path.join dir name) = files'.read (Path.join dir name) := by
  rw [FileTree.read, FileTree.read, FileTree.find_join hname hfind,
    FileTree.find_join hname hfind', hentry]
  cases FileTree.pathFault? (Path.join dir name) with
  | some fault => rfl
  | none =>
      cases files'.entryAt (place' ++ [name]) with
      | none => rfl
      | some entry => cases entry <;> rfl

/-- **A pack depends on what lies at and below its name alone.** -/
theorem loadPath_congr (hname : FileTree.IsName name)
    (hfind : files.find dir = .ok (place, .directory))
    (hfind' : files'.find dir = .ok (place', .directory))
    (hsame : ∀ below, files.entryAt (place ++ name :: below) =
      files'.entryAt (place' ++ name :: below)) :
    loadPath manifestName files (Path.join dir name) =
      loadPath manifestName files' (Path.join dir name) := by
  have hentry : files.entryAt (place ++ [name]) = files'.entryAt (place' ++ [name]) := hsame []
  have hdirs : files.isDirectory (Path.join dir name) = true ↔
      files'.isDirectory (Path.join dir name) = true := by
    rw [FileTree.isDirectory_join_iff hname hfind, FileTree.isDirectory_join_iff hname hfind',
      hentry]
  unfold loadPath PackFiles.ofPath
  by_cases hdir : files.isDirectory (Path.join dir name) = true
  · obtain ⟨hfollowed, hthere⟩ := (FileTree.isDirectory_join_iff hname hfind).1 hdir
    have hroot := FileTree.find_join hname hfind
    have hroot' := FileTree.find_join hname hfind'
    rw [hfollowed, hthere] at hroot
    rw [hfollowed, ← hentry, hthere] at hroot'
    have hagree : files.AgreeBelow files' (Path.join dir name) :=
      ⟨_, _, FileTree.roots_of_find hroot, FileTree.roots_of_find hroot', fun below => by
        simpa using hsame below⟩
    have hread := PackFiles.read_ofDirectory_congr hagree
    rw [if_pos hdir, if_pos (hdirs.1 hdir)]
    exact congrArg Loaded.result (loadPack_congr (by rfl) hread manifestName)
  · rw [if_neg hdir, if_neg fun hdir' => hdir (hdirs.2 hdir'),
      read_join_congr hname hfind hfind' hentry]

/-- What can be read as a text is a regular file. -/
theorem isFile_of_readText {path : Path} {text : String} (h : files.readText path = .ok text) :
    files.isFile path = true := by
  unfold FileTree.readText FileTree.read at h
  unfold FileTree.isFile
  rcases hfind : files.find path with fault | ⟨there, content | _⟩
  · simp [hfind] at h
  · rfl
  · simp [hfind] at h

/-- A directory from which a pack is loaded has a manifest. -/
theorem isFile_of_loadPath {path : Path} (hdir : files.isDirectory path = true)
    (h : loadPath manifestName files path = .ok pack) :
    files.isFile (Path.join path manifestName) = true := by
  rw [loadPath, PackFiles.ofPath, if_pos hdir] at h
  dsimp only at h
  cases hread : (PackFiles.ofDirectory files path).read manifestName with
  | error failure => simp [loadPack, hread] at h
  | ok answer =>
      cases answer with
      | none => simp [loadPack, hread] at h
      | some text =>
          have hbelow : PackFiles.readBelow files path manifestName = .ok (some text) := hread
          unfold PackFiles.readBelow at hbelow
          split_ifs at hbelow
          · exact isFile_of_readText (PackFiles.text_mem_of_answerOf hbelow)
          · cases hbelow

/-- **What is found under a name depends on what lies at and below it alone.** -/
theorem found_congr (hname : FileTree.IsName name)
    (hfind : files.find dir = .ok (place, .directory))
    (hfind' : files'.find dir = .ok (place', .directory))
    (hsame : ∀ below, files.entryAt (place ++ name :: below) =
      files'.entryAt (place' ++ name :: below)) :
    Found manifestName files dir place name pack →
      Found manifestName files' dir place' name pack := by
  rintro ⟨hcandidate, hload⟩
  have hentry : files.entryAt (place ++ [name]) = files'.entryAt (place' ++ [name]) := hsame []
  have hload' := (loadPath_congr hname hfind hfind' hsame).symm.trans hload
  refine ⟨?_, hload'⟩
  rcases hcandidate with ⟨hthere, -⟩ | ⟨⟨content, hthere⟩, hzip⟩
  · -- The manifest may lie anywhere, but a pack is loaded only if it lies below.
    have hdir' := (FileTree.isDirectory_join_iff hname hfind').2
      ⟨pathFault?_of_loadPath hload', hentry.symm.trans hthere⟩
    exact .inl ⟨hentry.symm.trans hthere, isFile_of_loadPath hdir' hload'⟩
  · exact .inr ⟨⟨content, hentry.symm.trans hthere⟩, hzip⟩

/-! ### Directories that hold the same packs -/

theorem discover_eq (hfind : files.find dir = .ok (place, .directory))
    (hnames : files.namesIn dir = .ok names) :
    discover manifestName files dir = (packsNamed manifestName files dir names, files) := by
  have hdir : files.isDirectory dir = true := FileTree.isDirectory_iff.2 ⟨place, hfind⟩
  rw [discover, FileTree.createDirectories_of_isDirectory hdir]
  simp only [hnames]

theorem Candidate.isSome (h : Candidate manifestName files dir place name) :
    (files.entryAt (place ++ [name])).isSome = true := by
  rcases h with ⟨hentry, -⟩ | ⟨⟨content, hentry⟩, -⟩ <;> rw [hentry] <;> rfl

/-- **What is discovered** are the packs that the candidates by ascending name yield. -/
theorem exists_candidates (manifestName : String) (hnamed : files.Named)
    (hfind : files.find dir = .ok (place, .directory)) :
    ∃ names : List String, names.Pairwise (· < ·) ∧
      (∀ name, name ∈ names ↔ Candidate manifestName files dir place name) ∧
      discover manifestName files dir =
        (names.filterMap (packAt? manifestName files dir), files) := by
  classical
  obtain ⟨listed, hnames⟩ := FileTree.namesIn_of_find hfind
  have hnodup := FileTree.nodup_namesIn hnames
  obtain ⟨sorted, hsorted, hmem, hpacks⟩ := packsNamed_eq manifestName files dir hnodup
  have hascending := ascending_mergeSort
    (hnodup.filter fun name => decide (Candidate manifestName files dir place name))
  have hcandidates : ∀ name, name ∈ (listed.filter fun name =>
      decide (Candidate manifestName files dir place name)).mergeSort (fun a b => decide (a ≤ b)) ↔
      Candidate manifestName files dir place name := by
    intro name
    rw [List.mem_mergeSort, List.mem_filter, decide_eq_true_eq]
    exact and_iff_right_of_imp fun h => (FileTree.mem_namesIn_iff hfind hnames).2 h.isSome
  refine ⟨_, hascending, hcandidates, ?_⟩
  rw [discover_eq hfind hnames, hpacks]
  -- A candidate whose path is too long is passed over, and it yields no pack.
  refine congrArg (·, files) (filterMap_eq_of_ascending hsorted hascending fun name pack => ?_)
  rw [hmem, found_iff_listed hnamed hfind hnames, hcandidates, packAt?_eq_some_iff, Found]

/-- The order in which the names of a directory are listed does not matter. -/
theorem packsNamed_of_perm (hfind : files.find dir = .ok (place, .directory))
    {listed : List String} (hnames : files.namesIn dir = .ok listed) (hperm : names.Perm listed) :
    packsNamed manifestName files dir names = (discover manifestName files dir).1 := by
  have hnodup := FileTree.nodup_namesIn hnames
  obtain ⟨sorted, hsorted, hmem, hpacks⟩ := packsNamed_eq manifestName files dir hnodup
  obtain ⟨sorted', hsorted', hmem', hpacks'⟩ :=
    packsNamed_eq manifestName files dir (hperm.nodup_iff.2 hnodup)
  rw [discover_eq hfind hnames, hpacks, hpacks']
  refine filterMap_eq_of_ascending hsorted' hsorted fun name pack => ?_
  rw [hmem, hmem', hperm.mem_iff]

/-- **Two directories hold the same packs where the same is found under each name.** -/
theorem discover_eq_of_found_iff (hnamed : files.Named) (hnamed' : files'.Named)
    (hfind : files.find dir = .ok (place, .directory))
    (hfind' : files'.find dir = .ok (place', .directory))
    (hsame : ∀ name pack, Found manifestName files dir place name pack ↔
      Found manifestName files' dir place' name pack) :
    (discover manifestName files dir).1 = (discover manifestName files' dir).1 := by
  obtain ⟨names, hnames, hmem, hdiscover⟩ := exists_candidates manifestName hnamed hfind
  obtain ⟨names', hnames', hmem', hdiscover'⟩ := exists_candidates manifestName hnamed' hfind'
  rw [hdiscover, hdiscover']
  refine filterMap_eq_of_ascending hnames hnames' fun name pack => ?_
  rw [hmem, hmem', packAt?_eq_some_iff, packAt?_eq_some_iff]
  exact hsame name pack

/-! ### Packs and their names -/

theorem origin_of_loadPack {source : PackFiles}
    (h : (loadPack manifestName source).result = .ok pack) : pack.origin = some source.location := by
  cases hread : source.read manifestName with
  | error failure => simp [loadPack, hread] at h
  | ok answer =>
      cases answer with
      | none => simp [loadPack, hread] at h
      | some text =>
          cases hjson : Manifest.ofJson text with
          | error fault => simp [loadPack, hread, hjson] at h
          | ok manifest =>
              rw [loadPack_eq hread hjson] at h
              cases houtcome : (gatherSources source manifest).outcome with
              | error failure => simp [houtcome, Except.map] at h
              | ok sources =>
                  simp only [houtcome, Except.map, Except.ok.injEq] at h
                  rw [← h]

/-- A pack remembers the path from which it was loaded. -/
theorem origin_of_loadPath {path : Path} (h : loadPath manifestName files path = .ok pack) :
    pack.origin = some path := by
  unfold loadPath PackFiles.ofPath at h
  split_ifs at h with hdir
  · exact origin_of_loadPack h
  · cases hread : files.read path with
    | error fault => simp [hread] at h
    | ok bytes =>
        cases hzip : Archive.Zip.open? bytes with
        | none => simp [hread, PackFiles.ofZipBytes, hzip] at h
        | some zip =>
            simp only [hread, PackFiles.ofZipBytes, hzip] at h
            exact origin_of_loadPack h

/-- A pack that is found tells the name under which it is. -/
theorem Found.name_eq {other : String} (hnamed : files.Named) (hslash : '/' ∉ other.toList)
    (h : Found manifestName files dir place name pack)
    (horigin : pack.origin = some (Path.join dir other)) : name = other := by
  have hpath := (origin_of_loadPath h.2).symm.trans horigin
  have hsegments := congrArg Path.segments (Option.some.inj hpath)
  rw [Path.segments_join (hnamed _ _ h.1.isSome).no_slash, Path.segments_join hslash] at hsegments
  exact List.singleton_inj.1 (List.append_cancel_left hsegments)

/-- A pack is found under one name only. -/
theorem Found.unique {other : String} (hnamed : files.Named)
    (h : Found manifestName files dir place name pack)
    (h' : Found manifestName files dir place other pack) : name = other :=
  h.name_eq hnamed (hnamed _ _ h'.1.isSome).no_slash (origin_of_loadPath h'.2)

theorem mem_discover_iff (hnamed : files.Named)
    (hfind : files.find dir = .ok (place, .directory)) :
    pack ∈ (discover manifestName files dir).1 ↔
      ∃ name, Found manifestName files dir place name pack := by
  obtain ⟨names, -, hmem, hdiscover⟩ := exists_candidates manifestName hnamed hfind
  rw [hdiscover, List.mem_filterMap]
  refine exists_congr fun name => ?_
  rw [hmem, packAt?_eq_some_iff, Found]

/-- **The packs come by ascending names.** -/
theorem discover_ascending (manifestName : String) (hnamed : files.Named)
    (hfind : files.find dir = .ok (place, .directory)) :
    (discover manifestName files dir).1.Pairwise fun earlier later =>
      ∀ name other, Found manifestName files dir place name earlier →
        Found manifestName files dir place other later → name < other := by
  obtain ⟨names, hascending, hmem, hdiscover⟩ := exists_candidates manifestName hnamed hfind
  rw [hdiscover, List.pairwise_filterMap]
  refine hascending.imp_of_mem ?_
  intro name other hname hother hlt earlier hearlier later hlater name' other' hfound hfound'
  have heq := hfound.unique hnamed ⟨(hmem name).1 hname, packAt?_eq_some_iff.1 hearlier⟩
  have heq' := hfound'.unique hnamed ⟨(hmem other).1 hother, packAt?_eq_some_iff.1 hlater⟩
  rwa [heq, heq']

end Shaderworks
