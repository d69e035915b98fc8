/-
**Zip archives.**

The entries of a zip archive are listed in a directory near its end, and a record at the end leads
to the directory.  Entries are looked up by the bytes of their names, the last one of a name
counting.  The data of an entry stands behind a header of its own, at which nobody looks before the
entry is read.

Main definitions:

* `Zip` — an archive;
* `Zip.open?` — the archive that some bytes hold;
* `Zip.read` — the text of the entry of a name.

Main results:

* `Zip.mem_entries_of_read` — every text is the content of an entry of the directory.
-/

import Shaderworks.Archive.Deflate
import Shaderworks.Archive.ZipEntry

set_option autoImplicit false

namespace Shaderworks.Archive

/-- An archive. -/
structure Zip where
  /-- The bytes of the archive. -/
  bytes : Bytes
  /-- The entries, in the order of the directory. -/
  entries : List ZipEntry

/-- Why an entry cannot be read. -/
inductive ZipFault where
  /-- The archive does not allow it. -/
  | archive (reason : String)
  /-- The content is damaged. -/
  | content (reason : String)
  deriving DecidableEq

namespace Zip

/-! ### Opening -/

/-- The archive whose record stands at a place. -/
def openAt? (bytes : Bytes) (place : Nat) : Option Zip := do
  let directory ← Directory.find? bytes place
  let entries ←
    ZipEntry.takeRows? directory.shift directory.count (bytes.drop directory.start)
  return { bytes, entries }

/-- The archive that some bytes hold: the last record that leads to a directory counts. -/
def open? (bytes : Bytes) : Option Zip :=
  (placesOf EndRecord.mark 0 bytes).reverse.findSome? (openAt? bytes)

/-! ### Reading -/

/-- What the header of an entry begins with. -/
def headerMark : Bytes := [0x50, 0x4b, 0x03, 0x04]

/-- The packed data of an entry, as far as the archive reaches: it stands behind the header. -/
def packed? (zip : Zip) (entry : ZipEntry) : Option Bytes := do
  let rest ← afterMark? headerMark (zip.bytes.drop entry.headerStart)
  let (_numbers, rest) ← takePart? 22 rest
  let (nameSize, rest) ← takeNumber? 2 rest
  let (fieldsSize, rest) ← takeNumber? 2 rest
  return (rest.drop (nameSize + fieldsSize)).take entry.packedSize

/-- The content of packed data, which has to be whole and to have the right checksum. -/
def unpack (entry : ZipEntry) (packed : Bytes) : Except ZipFault Bytes :=
  let content? := match entry.method with
    | .stored => some packed
    | .deflated => inflate? packed
    | .other _ => none
  match content? with
  | none => .error (.content "corrupt deflate stream")
  | some content =>
      if crc32 content = entry.checksum then .ok content
      else .error (.content "Invalid checksum")

/-- The content of an entry. -/
def readEntry (zip : Zip) (entry : ZipEntry) : Except ZipFault Bytes :=
  if entry.encrypted then .error (.archive "Password required to decrypt file")
  else
    match zip.packed? entry, entry.method with
    | none, _ => .error (.archive "Invalid local file header")
    | some _, .other _ => .error (.archive "Compression method not supported")
    | some packed, _ =>
        if entry.isSealed then .error (.archive "provided password is incorrect")
        else unpack entry packed

/-- The content of an entry as a text. -/
def readText (zip : Zip) (entry : ZipEntry) : Except ZipFault String :=
  match zip.readEntry entry with
  | .error fault => .error fault
  | .ok content =>
      match Bytes.text? content with
      | none => .error (.content "stream did not contain valid UTF-8")
      | some text => .ok text

/-- The last entry of a name, if there is one. -/
def find? (zip : Zip) (name : Bytes) : Option ZipEntry :=
  zip.entries.reverse.find? fun entry => entry.name == name

/-- The text of the entry of a name, if there is one. -/
def read (zip : Zip) (name : String) : Except ZipFault (Option String) :=
  match zip.find? (Bytes.ofText name) with
  | none => .ok none
  | some entry => (zip.readText entry).map some

/-- Every text is the content of an entry of the directory. -/
theorem mem_entries_of_read {zip : Zip} {name text : String}
    (h : zip.read name = .ok (some text)) :
    ∃ entry ∈ zip.entries, zip.readText entry = .ok text := by
  unfold read at h
  cases hfind : zip.find? (Bytes.ofText name) with
  | none =>
      rw [hfind] at h
      cases h
  | some entry =>
      simp only [hfind] at h
      refine ⟨entry, List.mem_reverse.1 (List.mem_of_find?_eq_some hfind), ?_⟩
      cases htext : zip.readText entry with
      | error fault =>
          rw [htext] at h
          cases h
      | ok found =>
          rw [htext] at h
          cases h
          rfl

end Zip

end Shaderworks.Archive
