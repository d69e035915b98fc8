/-
**A pack in a directory is confined to it.**

The paths that lead out of a pack come from strangers: a manifest names shaders, and shaders ask for
includes.  A path is refused if it is absolute or goes up anywhere, and every other path is taken from
the directory and leads downwards.  So nothing outside of the directory can show in a pack, whatever
the paths are.

Main results:

* `Collects.congr`, `loadPack_congr` — a pack depends on the answers for its paths alone;
* `PackFiles.exists_missing_of_read_none` — a path without text that is not refused was looked for;
* `loadPack_confined` — **a pack depends on what lies below its directory alone.**
-/

import Shaderworks.Proofs.Files.Below
import Shaderworks.Proofs.Pack.Closure

set_option autoImplicit false

namespace Shaderworks

/-! ### Files that answer alike -/

/-- A run depends on the answers for its paths alone. -/
theorem Collects.congr {files files' : PackFiles} {queue missing reads : List String}
    {sources : Sources} {outcome : Except Failure Sources}
    (h : Collects files queue sources missing reads outcome)
    (hread : ∀ path, files.read path = files'.read path) :
    Collects files' queue sources missing reads outcome := by
  induction h with
  | done sources missing => exact .done sources missing
  | again hmet _ ih => exact .again hmet ih
  | refused queue hnew hfailure => exact .refused queue hnew (hread _ ▸ hfailure)
  | absent hnew hnone _ ih => exact .absent hnew (hread _ ▸ hnone) ih
  | found hnew htext _ ih => exact .found hnew (hread _ ▸ htext) ih

/-- **A pack depends on the answers for its paths alone,** however many texts there are otherwise. -/
theorem loadPack_congr {files files' : PackFiles} (hlocation : files.location = files'.location)
    (hread : ∀ path, files.read path = files'.read path) (manifestName : String) :
    loadPack manifestName files = loadPack manifestName files' := by
  cases hmanifest : files.read manifestName with
  | error failure => rw [loadPack, loadPack, ← hread, hmanifest]
  | ok answer =>
      cases answer with
      | none => rw [loadPack, loadPack, ← hread, hmanifest, hlocation]
      | some text =>
          cases hjson : Manifest.ofJson text with
          | error fault =>
              simp only [loadPack, ← hread, hmanifest, hjson, hlocation]
          | ok m =>
              have hrun := (collects_gatherSources files m).congr hread
              obtain ⟨hasked, houtcome⟩ := hrun.unique (collects_gatherSources files' m)
              rw [loadPack_eq hmanifest hjson, loadPack_eq ((hread _).symm.trans hmanifest) hjson,
                hasked, houtcome, hlocation]

/-! ### Files of a directory -/

namespace PackFiles

variable {t u : FileTree} {root : Path} {path : String}

/-- Where the same lies below a directory, the same is answered for every path. -/
theorem read_ofDirectory_congr (h : t.AgreeBelow u root) (path : String) :
    (ofDirectory t root).read path = (ofDirectory u root).read path := by
  simp only [ofDirectory, readBelow]
  split
  · next hstays => rw [h.readText_join hstays]
  · rfl

theorem readText_of_read_none (hstays : Path.staysBelow path = true)
    (h : (ofDirectory t root).read path = .ok none) :
    t.read (Path.join root path) = .error .notFound := by
  simp only [ofDirectory, readBelow, hstays, if_true, FileTree.readText] at h
  cases hread : t.read (Path.join root path) with
  | error fault =>
      rw [hread] at h
      cases fault <;> cases h
      rfl
  | ok content =>
      simp only [hread] at h
      split at h <;> cases h

/-- **A path without text that is not refused was looked for:** with one file more, at a place below
the directory where nothing is, the answer is another. -/
theorem exists_missing_of_read_none {place : Place} (hroot : t.Roots root place)
    (hstays : Path.staysBelow path = true) (hne : Path.join root path ≠ "")
    (h : (ofDirectory t root).read path = .ok none) :
    ∃ below, t.entryAt (place ++ below) = none ∧
      (t.set (place ++ below) (.file [])).Roots root place ∧
        (ofDirectory (t.set (place ++ below) (.file [])) root).read path ≠ .ok none := by
  obtain ⟨hrelative, hup⟩ := Path.staysBelow_iff.1 hstays
  obtain ⟨hfault, hwalk⟩ :=
    hroot.walk_of_notFound hrelative hne (readText_of_read_none hstays h)
  obtain ⟨below, hmissing, hled⟩ := FileTree.exists_missing hup hroot.directory hwalk
  have hroot' : (t.set (place ++ below) (.file [])).Roots root place :=
    hroot.congr (FileTree.sameDirectories_set (by rw [hmissing]; simp) [])
  refine ⟨below, hmissing, hroot', fun hnone => ?_⟩
  have hread := readText_of_read_none hstays hnone
  obtain ⟨-, hwalk'⟩ := hroot'.walk_of_notFound hrelative hne hread
  rcases hled [] with heq | heq <;> rw [heq] at hwalk' <;> cases hwalk'

end PackFiles

/-- **A pack depends on what lies below its directory alone.**  Take two file trees that have the same
below a directory, and anything elsewhere.

* Every path is answered alike, whatever it is made of.
* So the same pack is loaded, or the same failure is met, for every name of the manifest, and the same
  paths are asked for.
* A path that starts with a slash or goes up anywhere is refused: it has no text whatever the files
  are.  Every other path is looked for: if it has no text, it would have had another answer with one
  file more at a place below the directory. -/
theorem loadPack_confined {t u : FileTree} {root : Path} (h : t.AgreeBelow u root) :
    (∀ path, (PackFiles.ofDirectory t root).read path = (PackFiles.ofDirectory u root).read path) ∧
      (∀ manifestName, loadPack manifestName (PackFiles.ofDirectory t root) =
        loadPack manifestName (PackFiles.ofDirectory u root)) ∧
      ∀ path : Path,
        (path.toList.head? = some '/' ∨ ".." ∈ path.segments →
          ∀ files, (PackFiles.ofDirectory files root).read path = .ok none) ∧
        (¬ (path.toList.head? = some '/' ∨ ".." ∈ path.segments) → Path.join root path ≠ "" →
          (PackFiles.ofDirectory t root).read path = .ok none →
            ∃ place below, t.Roots root place ∧ t.entryAt (place ++ below) = none ∧
              (t.set (place ++ below) (.file [])).Roots root place ∧
                (PackFiles.ofDirectory (t.set (place ++ below) (.file [])) root).read path ≠
                  .ok none) := by
  have hread := PackFiles.read_ofDirectory_congr h
  have hstays : ∀ path : Path, path.staysBelow = true ↔
      ¬ (path.toList.head? = some '/' ∨ ".." ∈ path.segments) := by
    intro path
    rw [Path.staysBelow_iff, not_or, Path.isAbsolute, beq_eq_false_iff_ne]
  refine ⟨hread, loadPack_congr rfl hread, fun path => ⟨fun hleaves files => ?_, ?_⟩⟩
  · refine PackFiles.ofDirectory_read_refused (Bool.eq_false_iff.2 fun heq => ?_)
    exact (hstays path).1 heq hleaves
  · intro hbelow hne hnone
    obtain ⟨place, -, hroot, -, -⟩ := h
    obtain ⟨below, hmore⟩ :=
      PackFiles.exists_missing_of_read_none hroot ((hstays path).2 hbelow) hne hnone
    exact ⟨place, below, hroot, hmore⟩

/-- A directory with a manifest, whose only shader asks for files outside of it. -/
def curious : FileTree :=
  let made := (FileTree.empty.createDirectories "packs/curious").2
  let manifest := "\x7b\"pipelines\":\x7b\"p\":\x7b\"vertex\":\"./a.vsh\"\x7d\x7d\x7d"
  (made.set ["packs", "curious", "pack.json"] (.file (Bytes.ofText manifest))).set
    ["packs", "curious", "a.vsh"]
    (.file (Bytes.ofText "#include \"/secret\"\n#include \"b/../../../secret\"\n"))

/-- The files outside do not show in the pack, and are not asked for elsewhere; a file inside is. -/
theorem loadPack_confined_curious :
    let secretive := curious.set ["secret"] (.file (Bytes.ofText "key"))
    curious.AgreeBelow secretive "packs/curious/" ∧
      secretive.readText "packs/curious/../../secret" = .ok "key" ∧
      loadPack "pack.json" (.ofDirectory curious "packs/curious/") =
        loadPack "pack.json" (.ofDirectory secretive "packs/curious/") ∧
      (loadPack "pack.json" (.ofDirectory curious "packs/curious/")).asked =
        ["pack.json", "./a.vsh", "/secret", "b/../../../secret"] ∧
      (∀ files, (PackFiles.ofDirectory files "packs/curious/").read "b/../../../secret" = .ok none) ∧
      ∃ files, (PackFiles.ofDirectory files "packs/curious/").read "b//./c" ≠ .ok none := by
  intro secretive
  have hroot : curious.Roots "packs/curious/" ["packs", "curious"] :=
    FileTree.roots_of_find (by decide +kernel)
  have hagree : curious.AgreeBelow secretive "packs/curious/" :=
    FileTree.agreeBelow_set hroot (by decide +kernel) (by decide +kernel) _
  obtain ⟨-, hload, hpaths⟩ := loadPack_confined hagree
  obtain ⟨hleaves, -⟩ := hpaths "b/../../../secret"
  obtain ⟨-, hlooks⟩ := hpaths "b//./c"
  obtain ⟨place, below, -, -, -, hother⟩ :=
    hlooks (by decide +kernel) (by decide +kernel) (by decide +kernel)
  exact ⟨hagree, by decide +kernel, hload "pack.json", by decide +kernel,
    hleaves (.inr (by decide +kernel)), _, hother⟩

end Shaderworks
