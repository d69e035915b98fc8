/-
**The files of a pack.**

A pack is read from a directory, from an archive, or from texts at hand.  All three answer the same
question: what is the text of this path, if there is one?

A pack has only finitely many texts, however many paths lead to them.  The texts are part of the
reader, so that following includes comes to an end.

Main definitions:

* `PackFiles` — where the files are, and the answer for each path;
* `PackFiles.ofTexts`, `PackFiles.ofDirectory`, `PackFiles.ofZip` — the three kinds.

Main results:

* `PackFiles.ofDirectory_read_refused` — a directory answers for no path that leads out of it.
-/

import Shaderworks.Archive.Zip
import Shaderworks.Failure
import Shaderworks.Files.Tree

set_option autoImplicit false

namespace Shaderworks

/-- The files of a pack. -/
structure PackFiles where
  /-- The directory or archive. -/
  location : Path
  /-- The text of a path, if there is one. -/
  read : String → Except Failure (Option String)
  /-- All texts that are answered. -/
  texts : List String
  /-- No other text is answered. -/
  text_mem : ∀ path text, read path = .ok (some text) → text ∈ texts

namespace PackFiles

/-! ### Texts at hand -/

/-- Texts by path; a path without text may be unreadable. -/
def ofTexts (location : Path) (texts : Sources) (unreadable : List String) : PackFiles where
  location := location
  read path :=
    if path ∈ unreadable then .error (.file "unreadable") else .ok (texts.get? path)
  texts := texts.values
  text_mem path text h := by
    split at h
    · cases h
    · exact List.mem_map.2 ⟨(path, text), mem_of_lookup (Except.ok.inj h), rfl⟩

/-! ### Directories -/

/-- What a failed look-up in a directory means: that nothing is there is no failure. -/
def answerOf : Except FileFault String → Except Failure (Option String)
  | .ok text => .ok (some text)
  | .error .notFound => .ok none
  | .error fault => .error (.file fault.text)

/-- The text of a path below a directory.  A path that leads elsewhere has none. -/
def readBelow (files : FileTree) (root : Path) (path : String) : Except Failure (Option String) :=
  if Path.staysBelow path then answerOf (files.readText (Path.join root path)) else .ok none

/-- The texts of all files of a tree. -/
def textsIn (files : FileTree) : List String :=
  files.entries.values.filterMap fun entry =>
    match entry with
    | .directory => none
    | .file content => Bytes.text? content

theorem mem_textsIn {files : FileTree} {path : Path} {text : String}
    (h : files.readText path = .ok text) : text ∈ textsIn files := by
  unfold FileTree.readText at h
  split at h
  · cases h
  · next content hread =>
      have htext : Bytes.text? content = some text := by
        split at h
        · cases h
        · next t ht =>
            cases h
            exact ht
      unfold FileTree.read at hread
      split at hread
      · cases hread
      · cases hread
      · next place c hfind =>
          cases hread
          unfold FileTree.find at hfind
          split at hfind
          · cases hfind
          · split at hfind
            · cases hfind
            · next place' entry hentry =>
                cases hfind
                have hrow : files.entries.get? place = some (.file content) := by
                  unfold FileTree.entryAt at hentry
                  split at hentry
                  · cases hentry
                  · exact hentry
                refine List.mem_filterMap.2 ⟨.file content, ?_, htext⟩
                exact List.mem_map.2 ⟨(place, .file content), mem_of_lookup hrow, rfl⟩

theorem text_mem_of_answerOf {r : Except FileFault String} {text : String}
    (h : answerOf r = .ok (some text)) : r = .ok text := by
  cases r with
  | ok t =>
      cases h
      rfl
  | error fault => cases fault <;> cases h

/-- The files of a directory. -/
def ofDirectory (files : FileTree) (root : Path) : PackFiles where
  location := root
  read := readBelow files root
  texts := textsIn files
  text_mem path text h := by
    unfold readBelow at h
    split at h
    · exact mem_textsIn (text_mem_of_answerOf h)
    · cases h

/-- A directory answers for no path that leads out of it. -/
theorem ofDirectory_read_refused {files : FileTree} {root : Path} {path : String}
    (h : Path.staysBelow path = false) : (ofDirectory files root).read path = .ok none := by
  simp [ofDirectory, readBelow, h]

/-! ### Archives -/

/-- What a fault of an archive means. -/
def zipFailure (location : Path) : Archive.ZipFault → Failure
  | .archive reason => .archive location reason
  | .content reason => .file reason

/-- The text of an entry of an archive. -/
def readZip (zip : Archive.Zip) (location : Path) (name : String) :
    Except Failure (Option String) :=
  (zip.read name).mapError (zipFailure location)

/-- The texts of all entries of an archive. -/
def textsOfZip (zip : Archive.Zip) : List String :=
  zip.entries.filterMap fun entry => (zip.readText entry).toOption

theorem mem_textsOfZip {zip : Archive.Zip} {name text : String}
    (h : zip.read name = .ok (some text)) : text ∈ textsOfZip zip := by
  obtain ⟨entry, hmem, htext⟩ := Archive.Zip.mem_entries_of_read h
  exact List.mem_filterMap.2 ⟨entry, hmem, by rw [htext]; rfl⟩

/-- The files of an archive. -/
def ofZip (zip : Archive.Zip) (location : Path) : PackFiles where
  location := location
  read := readZip zip location
  texts := textsOfZip zip
  text_mem name text h := by
    unfold readZip at h
    cases hread : zip.read name with
    | error fault => rw [hread] at h; cases h
    | ok answer =>
        rw [hread] at h
        cases h
        exact mem_textsOfZip hread

/-- The files of the archive that some bytes hold. -/
def ofZipBytes (bytes : Bytes) (location : Path) : Except Failure PackFiles :=
  match Archive.Zip.open? bytes with
  | none => .error (.archive location "invalid Zip archive")
  | some zip => .ok (ofZip zip location)

/-- The files of what a path leads to: of a directory, or else of an archive. -/
def ofPath (files : FileTree) (path : Path) : Except Failure PackFiles :=
  if files.isDirectory path then .ok (ofDirectory files path)
  else
    match files.read path with
    | .error fault => .error (.file fault.text)
    | .ok bytes => ofZipBytes bytes path

end PackFiles

end Shaderworks
