/-
**Manifests.**

The manifest of a pack gives its name and version and describes its pipelines.  Keys that mean
nothing here are kept with their values.  A missing name or version is read as an empty one, which
the pack is refused for later.

Main definitions:

* `Manifest` — manifests;
* `Manifest.ofJson`, `Manifest.toJson` — the JSON form.
-/

import Shaderworks.Data.NameMap
import Shaderworks.Pack.PipelineSpec

set_option autoImplicit false

namespace Shaderworks

/-- The manifest of a pack. -/
structure Manifest where
  /-- The name of the pack. -/
  name : String := ""
  /-- The version of the pack. -/
  version : String := ""
  /-- Who made the pack. -/
  author : Option String := none
  /-- What the pack is. -/
  description : Option String := none
  /-- The pipelines, by name. -/
  pipelines : NameMap PipelineSpec := NameMap.empty
  /-- The keys without a meaning here, with their values. -/
  extensions : NameMap Json.Value := NameMap.empty

namespace Manifest

open Json

/-- Equality of manifests, part by part. -/
def same (m n : Manifest) : Bool :=
  m.name == n.name && m.version == n.version && m.author == n.author &&
    m.description == n.description && m.pipelines.entries == n.pipelines.entries &&
    m.extensions.entries == n.extensions.entries

/-- The fields of a manifest. -/
def fields : List (RecordField Manifest) :=
  [.of "name" readText fun m v => { m with name := v },
    .of "version" readText fun m v => { m with version := v },
    .of "author" readOptional fun m v => { m with author := v },
    .of "description" readOptional fun m v => { m with description := v },
    .of "pipelines" (readMap PipelineSpec.read) fun m v => { m with pipelines := v }]

/-- How many arrays and objects may stand inside one another in a manifest, itself not counted. -/
def extensionDepth : Nat := 126

/-- Keeps a member that is no field. -/
def keepMember (name : String) (node : Node) (m : Manifest) : Except ReadError Manifest :=
  (readValue extensionDepth node).map fun value =>
    { m with extensions := m.extensions.insert name value }

/-- Reads a manifest. -/
def read : Reader Manifest
  | .object members ending => readNamed fields keepMember [] members ending {}
  | node => unwanted "struct PackManifest" node

/-- The manifest that a text spells. -/
def ofJson (text : String) : Except ReadError Manifest := readDocument read text

/-- The members of a manifest: the fields, then the other keys. -/
def members (m : Manifest) : List (String × List Char) :=
  [("name", printText m.name), ("version", printText m.version), ("author", printOptional m.author),
    ("description", printOptional m.description),
    ("pipelines", printObject (m.pipelines.entries.map fun p => (p.1, p.2.print)))] ++
    printMembers m.extensions.entries

/-- The text of a manifest. -/
def toJson (m : Manifest) : String := String.ofList (printObject m.members)

end Manifest

end Shaderworks
