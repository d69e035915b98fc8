/-
**The bytecode cache.**

Bytecode is kept in memory and, one file per key, in a directory that outlives the program.  A
look-up asks the memory first and then the directory, and what the directory has is taken into
memory.  Writing goes to both; a file that cannot be written is left out, and the bytecode is still
in memory.

Main definitions:

* `Cache` — the memory, the directory, and the files that the directory stands in;
* `Cache.mount` — a cache on a directory, which is made if it is missing;
* `Cache.get`, `Cache.put`, `Cache.evict`, `Cache.clear` — the operations;
* `Cache.stats`, `CacheStats.text` — what the cache holds.

Main results:

* `Cache.get_fst` — a look-up answers what the two tiers hold.
-/

import Shaderworks.Bytecode.Key
import Shaderworks.Decimal.Binary64
import Shaderworks.Files.Tree

set_option autoImplicit false

namespace Shaderworks

/-- The extension of the files of a cache. -/
def cacheExtension : String := "spv"

/-- What a cache holds. -/
structure CacheStats where
  /-- The number of keys in memory. -/
  memoryCount : Nat
  /-- The number of files in the directory. -/
  persistentCount : Nat
  /-- The size of these files together, in bytes. -/
  totalBytes : Nat
  deriving DecidableEq

/-- What a cache holds, in words.  The size is a floating-point number of mebibytes with two
places. -/
def CacheStats.text (stats : CacheStats) : String :=
  let bytes :=
    (Decimal.Binary64.nearest? false stats.totalBytes 1).getD (Decimal.Binary64.zero false)
  "Memory: " ++ toString stats.memoryCount ++ ", Disk: " ++ toString stats.persistentCount ++
    ", Size: " ++ Decimal.fixedText 2 bytes.ratio.1 (bytes.ratio.2 * Decimal.twoTo 20) ++ " MB"

/-- A cache on a directory. -/
structure Cache where
  /-- The files around the cache. -/
  files : FileTree
  /-- The directory of the cache. -/
  dir : Path
  /-- The bytecode in memory. -/
  memory : Table CacheKey Bytes := Table.empty

namespace Cache

/-- A cache on a directory, which is made if it is missing, and the files afterwards. -/
def mount (files : FileTree) (dir : Path) : Except FileFault Cache × FileTree :=
  match files.createDirectories dir with
  | (some fault, files) => (.error fault, files)
  | (none, files) => (.ok { files, dir }, files)

/-- The name of the file of a key. -/
def fileName (key : CacheKey) : String := key.hex ++ "." ++ cacheExtension

/-- The path of the file of a key. -/
def entryPath (cache : Cache) (key : CacheKey) : Path := Path.join cache.dir (fileName key)

/-- The bytecode of a key in the directory. -/
def stored? (cache : Cache) (key : CacheKey) : Option Bytes :=
  match cache.files.read (cache.entryPath key) with
  | .ok content => some content
  | .error _ => none

/-- The bytecode of a key. -/
def find? (cache : Cache) (key : CacheKey) : Option Bytes :=
  match cache.memory.get? key with
  | some bytecode => some bytecode
  | none => cache.stored? key

/-- The bytecode of a key, taken into memory. -/
def get (cache : Cache) (key : CacheKey) : Option Bytes × Cache :=
  match cache.memory.get? key with
  | some bytecode => (some bytecode, cache)
  | none =>
      match cache.stored? key with
      | some bytecode => (some bytecode, { cache with memory := cache.memory.put key bytecode })
      | none => (none, cache)

/-- The cache with bytecode put under a key, in memory and, if that can be done, in the
directory. -/
def put (cache : Cache) (key : CacheKey) (bytecode : Bytes) : Cache where
  files := (cache.files.write (cache.entryPath key) bytecode).toOption.getD cache.files
  dir := cache.dir
  memory := cache.memory.put key bytecode

/-- The cache with nothing in memory. -/
def evict (cache : Cache) : Cache := { cache with memory := Table.empty }

/-- Removes the files of these names from a directory; what cannot be removed stays. -/
def removeNames (dir : Path) (files : FileTree) (names : List String) : FileTree :=
  names.foldl (fun files name => (files.remove (Path.join dir name)).toOption.getD files) files

/-- The names in the directory that have the extension of a cache file, whatever stands there. -/
def entryNames (cache : Cache) : List String :=
  match cache.files.namesIn cache.dir with
  | .ok names => names.filter fun name => Path.hasExtension name cacheExtension
  | .error _ => []

/-- The cache with nothing in memory and no file in the directory. -/
def clear (cache : Cache) : Cache where
  files := removeNames cache.dir cache.files cache.entryNames
  dir := cache.dir

/-- The content of a file in the directory. -/
def fileContent? (cache : Cache) (name : String) : Option Bytes :=
  (cache.files.read (Path.join cache.dir name)).toOption

/-- What the cache holds: files only count when they are regular. -/
def stats (cache : Cache) : CacheStats :=
  let contents := cache.entryNames.filterMap cache.fileContent?
  { memoryCount := cache.memory.size
    persistentCount := contents.length
    totalBytes := contents.flatten.length }

/-! ### What is found -/

/-- A look-up answers what the two tiers hold. -/
theorem get_fst (cache : Cache) (key : CacheKey) : (cache.get key).1 = cache.find? key := by
  unfold get find?
  cases cache.memory.get? key with
  | some bytecode => rfl
  | none => cases cache.stored? key <;> rfl

end Cache

end Shaderworks
