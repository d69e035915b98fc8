/-
**Finding the directory of an archive.**

An archive ends with a record that tells where the directory of its entries is.  Its numbers have
sixteen or thirty-two bits.  Where they do not suffice, a second record with wider numbers stands
before it, and between the two a locator that tells where the wide record begins.  Data may stand in
front of the archive: all places are then off by the same amount, which is found by looking for the
first row of the directory, or for the wide record.

Main definitions:

* `EndRecord`, `Locator`, `WideRecord` — the three records;
* `Directory` — where the directory begins, how many rows it has, and by how much places are off;
* `Directory.find?` — the directory that the record at a place leads to.
-/

import Shaderworks.Archive.Scan

set_option autoImplicit false

namespace Shaderworks.Archive

/-! ### The record at the end -/

/-- The record at the end of an archive. -/
structure EndRecord where
  /-- The number of this disk. -/
  disk : Nat
  /-- The number of the disk with the directory. -/
  directoryDisk : Nat
  /-- How many entries there are on this disk. -/
  countHere : Nat
  /-- How many entries there are in all. -/
  count : Nat
  /-- The size of the directory. -/
  directorySize : Nat
  /-- Where the directory is said to begin. -/
  directoryStart : Nat
  deriving DecidableEq

/-- What the record at the end begins with. -/
def EndRecord.mark : Bytes := [0x50, 0x4b, 0x05, 0x06]

/-- The record that some bytes begin with.  Its comment has to be whole; more may follow. -/
def EndRecord.ofBytes? (bytes : Bytes) : Option EndRecord := do
  let rest ← afterMark? mark bytes
  let (disk, rest) ← takeNumber? 2 rest
  let (directoryDisk, rest) ← takeNumber? 2 rest
  let (countHere, rest) ← takeNumber? 2 rest
  let (count, rest) ← takeNumber? 2 rest
  let (directorySize, rest) ← takeNumber? 4 rest
  let (directoryStart, rest) ← takeNumber? 4 rest
  let (commentSize, rest) ← takeNumber? 2 rest
  let _comment ← takePart? commentSize rest
  return { disk, directoryDisk, countHere, count, directorySize, directoryStart }

/-- Whether a number of the record is the greatest of its width, which stands for a greater one. -/
def EndRecord.mayBeWide (record : EndRecord) : Bool :=
  record.count = 0xFFFF || record.directorySize = 0xFFFFFFFF || record.directoryStart = 0xFFFFFFFF

/-! ### The wide record -/

/-- The locator of a wide record. -/
structure Locator where
  /-- The number of the disk with the directory. -/
  directoryDisk : Nat
  /-- Where the wide record is said to begin. -/
  recordStart : Nat
  /-- How many disks there are. -/
  disks : Nat
  deriving DecidableEq

/-- What a locator begins with. -/
def Locator.mark : Bytes := [0x50, 0x4b, 0x06, 0x07]

/-- The size of a locator. -/
def Locator.size : Nat := 20

/-- The locator that some bytes begin with. -/
def Locator.ofBytes? (bytes : Bytes) : Option Locator := do
  let rest ← afterMark? mark bytes
  let (directoryDisk, rest) ← takeNumber? 4 rest
  let (recordStart, rest) ← takeNumber? 8 rest
  let (disks, _) ← takeNumber? 4 rest
  return { directoryDisk, recordStart, disks }

/-- A record with wide numbers. -/
structure WideRecord where
  /-- How many bytes of the record follow this number. -/
  size : Nat
  /-- The number of this disk. -/
  disk : Nat
  /-- The number of the disk with the directory. -/
  directoryDisk : Nat
  /-- How many entries there are on this disk. -/
  countHere : Nat
  /-- How many entries there are in all. -/
  count : Nat
  /-- Where the directory is said to begin. -/
  directoryStart : Nat
  deriving DecidableEq

namespace WideRecord

/-- What a wide record begins with. -/
def mark : Bytes := [0x50, 0x4b, 0x06, 0x06]

/-- The wide record that some bytes begin with. -/
def ofBytes? (bytes : Bytes) : Option WideRecord := do
  let rest ← afterMark? mark bytes
  let (size, rest) ← takeNumber? 8 rest
  let (_versions, rest) ← takePart? 4 rest
  let (disk, rest) ← takeNumber? 4 rest
  let (directoryDisk, rest) ← takeNumber? 4 rest
  let (countHere, rest) ← takeNumber? 8 rest
  let (count, rest) ← takeNumber? 8 rest
  let (_size, rest) ← takeNumber? 8 rest
  let (directoryStart, _) ← takeNumber? 8 rest
  return { size, disk, directoryDisk, countHere, count, directoryStart }

/-- The least size of a row of the directory. -/
def leastRow : Nat := 46

/-- Whether a wide record at a place reaches up to its locator, agrees with it about the disk of the
directory, and leaves room for the directory before it. -/
structure Fits (record : WideRecord) (locator : Locator) (locatorPlace place : Nat) : Prop where
  /-- The record has all of its numbers. -/
  whole : 44 ≤ record.size
  /-- The record ends where the locator begins. -/
  adjoins : place + (record.size + 12) = locatorPlace
  /-- Both name the same disk. -/
  sameDisk : record.directoryDisk = locator.directoryDisk
  /-- As many rows as there are entries fit before the record. -/
  room : record.count * leastRow + record.directoryStart ≤ place

instance (record : WideRecord) (locator : Locator) (locatorPlace place : Nat) :
    Decidable (record.Fits locator locatorPlace place) :=
  decidable_of_iff
    (44 ≤ record.size ∧ place + (record.size + 12) = locatorPlace ∧
      record.directoryDisk = locator.directoryDisk ∧
      record.count * leastRow + record.directoryStart ≤ place)
    ⟨fun h => ⟨h.1, h.2.1, h.2.2.1, h.2.2.2⟩, fun h => ⟨h.whole, h.adjoins, h.sameDisk, h.room⟩⟩

/-- The first wide record from where a locator points to that fits, and its place. -/
def find? (bytes : Bytes) (locator : Locator) (locatorPlace : Nat) : Option (Nat × WideRecord) :=
  let between := (bytes.take locatorPlace).drop locator.recordStart
  (placesOf mark locator.recordStart between).findSome? fun place => do
    let record ← ofBytes? (bytes.drop place)
    if record.Fits locator locatorPlace place then some (place, record) else none

end WideRecord

/-! ### The directory -/

/-- Where the directory of an archive is. -/
structure Directory where
  /-- By how much all places are off. -/
  shift : Nat
  /-- Where the directory begins. -/
  start : Nat
  /-- How many rows it has. -/
  count : Nat
  deriving DecidableEq

namespace Directory

/-- What a row of the directory begins with. -/
def rowMark : Bytes := [0x50, 0x4b, 0x01, 0x02]

/-- The directory of the record at a place, after its narrow numbers.  It begins at its first row;
without entries it is taken to end where the record begins. -/
def narrow? (bytes : Bytes) (place : Nat) (record : EndRecord) : Option Directory := do
  let shift ←
    if record.count = 0 then some (place - record.directoryStart)
    else if place ≤ record.directoryStart then none
    else
      let between := (bytes.take place).drop record.directoryStart
      (placesOf rowMark 0 between).head?
  if record.disk ≠ record.directoryDisk then none
  return { shift, start := record.directoryStart + shift, count := record.countHere }

/-- The directory of the wide record that the locator at a place leads to. -/
def wide? (bytes : Bytes) (locatorPlace : Nat) (locator : Locator) : Option Directory := do
  if locatorPlace ≤ locator.recordStart ∨ 1 < locator.disks then none
  let (place, record) ← WideRecord.find? bytes locator locatorPlace
  if record.count < record.countHere then none
  if record.disk ≠ record.directoryDisk then none
  let shift := place - locator.recordStart
  return { shift, start := record.directoryStart + shift, count := record.count }

/-- The locator before the record at a place, and its place. -/
def locatorBefore? (bytes : Bytes) (place : Nat) : Option (Nat × Locator) :=
  if place < Locator.size then none
  else
    let start := place - Locator.size
    (Locator.ofBytes? (bytes.drop start)).map fun locator => (start, locator)

/-- The directory that the record at a place leads to.  Without a locator the narrow numbers stand
for themselves, even the greatest. -/
def find? (bytes : Bytes) (place : Nat) : Option Directory := do
  let record ← EndRecord.ofBytes? (bytes.drop place)
  match if record.mayBeWide then locatorBefore? bytes place else none with
  | none => narrow? bytes place record
  | some (start, locator) => wide? bytes start locator

end Directory

end Shaderworks.Archive
