/-
**Settings.**

Main definitions:

* `Settings` — where the cache is, how deep includes may nest, whether pipelines override by
  themselves, and how manifests are called;
* `Settings.ofJson` — the JSON form, in which every setting may be left out.
-/

import Shaderworks.Files.Path
import Shaderworks.Json.Reading

set_option autoImplicit false

namespace Shaderworks

/-- How deep includes may nest unless a setting says otherwise. -/
def defaultMaxDepth : Nat := 32

/-- How manifests are called unless a setting says otherwise. -/
def defaultManifestName : String := "pack.json"

/-- The settings of an engine. -/
structure Settings where
  /-- The directory of the bytecode cache. -/
  cacheDir : Path := "shadercache"
  /-- How deep includes may nest. -/
  maxDepth : Nat := defaultMaxDepth
  /-- Whether a loaded pipeline of the main pass overrides the host pipeline of its name. -/
  autoOverride : Bool := true
  /-- The name of the manifest at the root of a pack. -/
  manifestName : String := defaultManifestName
  deriving DecidableEq

namespace Settings

open Json

/-- The fields of the settings, in their order. -/
def fields : List (RecordField Settings) :=
  [.of "cache_dir" (readTextAs "path string") fun s v => { s with cacheDir := v },
    .of "max_include_depth" readCount fun s v => { s with maxDepth := v },
    .of "auto_override" readBool fun s v => { s with autoOverride := v },
    .of "manifest_name" readText fun s v => { s with manifestName := v }]

/-- Reads settings.  Members that are no settings are passed over. -/
def read : Reader Settings := readRecord "struct EngineSettings" fields {}

/-- The settings that a text spells. -/
def ofJson (text : String) : Except ReadError Settings := readDocument read text

end Settings

end Shaderworks
