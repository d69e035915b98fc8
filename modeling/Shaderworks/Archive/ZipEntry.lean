/-
**Entries of archives.**

A row of the directory of an archive names an entry and tells how its data is packed and where it
is.  Names are bytes, whatever text they were meant to be.  A row may carry additional fields, each
with a kind and a size: wider numbers, times, the manner of an encryption, or a name or a comment in
UTF-8 together with the checksum of the one it stands for.  Fields of other kinds are passed over.

Main definitions:

* `ZipMethod`, `ZipEntry` — the entries;
* `FieldKind` — the kinds of additional fields;
* `ZipEntry.extend?` — the entry with its additional fields;
* `ZipEntry.take?` — the entry of a row, with the bytes after the row.
-/

import Shaderworks.Archive.Crc32
import Shaderworks.Archive.EndRecord
import Shaderworks.Archive.EntryText
import Shaderworks.Decimal.Power

set_option autoImplicit false

namespace Shaderworks.Archive

/-- How the data of an entry is packed. -/
inductive ZipMethod where
  /-- As it is. -/
  | stored
  /-- Deflated. -/
  | deflated
  /-- In another way, given by its number. -/
  | other (number : Nat)
  deriving DecidableEq

/-- The method of a number. -/
def ZipMethod.ofNumber : Nat → ZipMethod
  | 0 => stored
  | 8 => deflated
  | number => other number

/-- The method that stands for an encryption told by an additional field. -/
def ZipMethod.sealed : ZipMethod := other 99

/-- The kind of an additional field. -/
inductive FieldKind where
  /-- Wider numbers. -/
  | numbers
  /-- Times in steps of a tenth of a microsecond. -/
  | fineTimes
  /-- Times in seconds. -/
  | times
  /-- The comment in UTF-8. -/
  | comment
  /-- The name in UTF-8. -/
  | name
  /-- The manner of an encryption. -/
  | encryption
  /-- Bytes that only move the data to a better place. -/
  | padding
  /-- Any other kind. -/
  | unknown
  deriving DecidableEq

/-- The kind of a number. -/
def FieldKind.ofNumber : Nat → FieldKind
  | 0x0001 => numbers
  | 0x000a => fineTimes
  | 0x5455 => times
  | 0x6375 => comment
  | 0x7075 => name
  | 0x9901 => encryption
  | 0xa11e => padding
  | _ => unknown

/-- An entry of an archive. -/
structure ZipEntry where
  /-- The name of the entry. -/
  name : Bytes
  /-- The comment on the entry, in UTF-8. -/
  comment : Bytes
  /-- Whether a password is needed. -/
  encrypted : Bool
  /-- Whether an additional field tells of an encryption. -/
  isSealed : Bool
  /-- How the data is packed. -/
  method : ZipMethod
  /-- The checksum of the content. -/
  checksum : UInt32
  /-- The size of the content. -/
  size : Nat
  /-- The size of the data. -/
  packedSize : Nat
  /-- The place of the header. -/
  headerStart : Nat
  deriving DecidableEq

namespace ZipEntry

/-! ### Additional fields -/

/-- The greatest number of thirty-two bits, which stands for a greater one. -/
def tooWide : Nat := 0xFFFFFFFF

/-- A wide number in the place of one that was too wide, or of any if `all` are given. -/
def takeWide? (all : Bool) (old : Nat) (bytes : Bytes) : Option (Nat × Bytes) :=
  if all || old = tooWide then takeNumber? 8 bytes else some (old, bytes)

/-- The entry with wide numbers.  A field that has room for three of them gives all three; what is
left of the field is passed over. -/
def takeNumbers? (size : Nat) (entry : ZipEntry) (bytes : Bytes) : Option (ZipEntry × Bytes) := do
  let all : Bool := 24 ≤ size
  let (contentSize, rest) ← takeWide? all entry.size bytes
  let (packedSize, rest) ← takeWide? all entry.packedSize rest
  let (headerStart, rest) ← takeWide? all entry.headerStart rest
  let used := bytes.length - rest.length
  if size < used then none
  return ({ entry with size := contentSize, packedSize, headerStart }, rest.drop (size - used))

/-- Passes over times in steps of a tenth of a microsecond. -/
def skipFineTimes? (size : Nat) (bytes : Bytes) : Option Bytes := do
  if size ≠ 32 then none
  let (_reserved, rest) ← takePart? 4 bytes
  let (kind, rest) ← takeNumber? 2 rest
  let (timesSize, rest) ← takeNumber? 2 rest
  if kind ≠ 1 ∨ timesSize ≠ 24 then none
  let (_times, rest) ← takePart? 24 rest
  return rest

/-- Passes over times in seconds: flags tell which of them are given.  A field of five bytes holds
one time, whatever its flags. -/
def skipTimes? (size : Nat) (bytes : Bytes) : Option Bytes := do
  let (flags, _) ← takeNumber? 1 bytes
  let given := (List.range 8).countP flags.testBit
  if size ≠ 5 ∧ size ≠ 1 + 4 * given then none
  let (_times, rest) ← takePart? size bytes
  return rest

/-- The entry with an encryption and the method that is used beneath it. -/
def takeSeal? (size : Nat) (entry : ZipEntry) (bytes : Bytes) : Option (ZipEntry × Bytes) := do
  if size ≠ 7 then none
  let (version, rest) ← takeNumber? 2 bytes
  let (vendor, rest) ← takeNumber? 2 rest
  let (strength, rest) ← takeNumber? 1 rest
  let (method, rest) ← takeNumber? 2 rest
  if vendor ≠ 0x4541 ∨ version ∉ [1, 2] ∨ strength ∉ [1, 2, 3] then none
  return ({ entry with isSealed := true, method := .ofNumber method }, rest)

/-- The bytes that stand for some others of a given checksum, if that is right and they are
UTF-8. -/
def replacement? (old : Bytes) (checksum : Nat) (content : Bytes) : Option Bytes :=
  if (crc32 old).toNat = checksum ∧ (Bytes.text? content).isSome then some content else none

/-- The text of a field that stands for another one. -/
def takeReplacement? (size : Nat) (old bytes : Bytes) : Option (Bytes × Bytes) := do
  let (_version, rest) ← takePart? 1 bytes
  let (checksum, rest) ← takeNumber? 4 rest
  if size < 5 then none
  let (content, rest) ← takePart? (size - 5) rest
  let content ← replacement? old checksum content
  return (content, rest)

/-- The entry with the content of a field, and the bytes after it. -/
def takeContent? (kind : FieldKind) (size : Nat) (entry : ZipEntry) (bytes : Bytes) :
    Option (ZipEntry × Bytes) :=
  match kind with
  | .numbers => entry.takeNumbers? size bytes
  | .fineTimes => (skipFineTimes? size bytes).map fun rest => (entry, rest)
  | .times => (skipTimes? size bytes).map fun rest => (entry, rest)
  | .comment =>
      (takeReplacement? size entry.comment bytes).map fun r => ({ entry with comment := r.1 }, r.2)
  | .name =>
      (takeReplacement? size entry.name bytes).map fun r => ({ entry with name := r.1 }, r.2)
  | .encryption => entry.takeSeal? size bytes
  | .padding | .unknown => (takePart? size bytes).map fun r => (entry, r.2)

/-- The entry with the fields that some bytes hold; `fuel` bounds their number.  A last byte that is
no kind is passed over, and so is an unknown kind without a size; a known kind has to have one. -/
def extendBy? : (fuel : Nat) → ZipEntry → Bytes → Option ZipEntry
  | 0, entry, _ => some entry
  | fuel + 1, entry, bytes =>
      match takeNumber? 2 bytes with
      | none => some entry
      | some (number, rest) =>
          let kind := FieldKind.ofNumber number
          match takeNumber? 2 rest with
          | none => if kind = .unknown then some entry else none
          | some (size, rest) =>
              match entry.takeContent? kind size rest with
              | none => none
              | some (entry, rest) => extendBy? fuel entry rest

/-- The entry with its additional fields. -/
def extend? (entry : ZipEntry) (fields : Bytes) : Option ZipEntry :=
  extendBy? (fields.length + 1) entry fields

/-! ### Rows -/

/-- The entry of the row that some bytes begin with, and the bytes after it; `shift` is by how much
the place of its header is off. -/
def take? (shift : Nat) (bytes : Bytes) : Option (ZipEntry × Bytes) := do
  let rest ← afterMark? Directory.rowMark bytes
  let (_versions, rest) ← takePart? 4 rest
  let (flags, rest) ← takeNumber? 2 rest
  let (method, rest) ← takeNumber? 2 rest
  let (_time, rest) ← takePart? 4 rest
  let (checksum, rest) ← takeNumber? 4 rest
  let (packedSize, rest) ← takeNumber? 4 rest
  let (size, rest) ← takeNumber? 4 rest
  let (nameSize, rest) ← takeNumber? 2 rest
  let (fieldsSize, rest) ← takeNumber? 2 rest
  let (commentSize, rest) ← takeNumber? 2 rest
  let (_attributes, rest) ← takePart? 8 rest
  let (headerStart, rest) ← takeNumber? 4 rest
  let (name, rest) ← takePart? nameSize rest
  let (fields, rest) ← takePart? fieldsSize rest
  let (comment, rest) ← takePart? commentSize rest
  let given : ZipEntry := {
    name
    comment := .ofText (if flags.testBit 11 then lossyText comment else codePageText comment)
    encrypted := flags.testBit 0
    isSealed := false
    method := .ofNumber method
    checksum := UInt32.ofNat checksum
    size
    packedSize
    headerStart }
  let entry ← given.extend? fields
  let headerStart := entry.headerStart + shift
  if entry.method = .sealed ∧ entry.isSealed = false ∨ Decimal.twoTo 64 ≤ headerStart then none
  return ({ entry with headerStart }, rest)

/-- The entries of `count` rows that follow one another. -/
def takeRows? (shift : Nat) : (count : Nat) → Bytes → Option (List ZipEntry)
  | 0, _ => some []
  | count + 1, bytes => do
      let (entry, rest) ← take? shift bytes
      let entries ← takeRows? shift count rest
      return entry :: entries

end ZipEntry

end Shaderworks.Archive
