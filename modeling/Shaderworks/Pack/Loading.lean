/-
**Loading packs.**

A pack is loaded by reading its manifest, then every file that its pipelines name, and then every
file that those ask to include, until no new path turns up.  A path without text is passed over
here: a missing shader is a defect of the pack, and a missing include an error of the shader that
asks for it.

Main definitions:

* `gather` — the texts that a manifest needs, and the paths that were asked for;
* `loadPack` — the pack that some files hold;
* `discover` — the packs in a directory, by ascending name.

Main results:

* `gather_done` — nothing is read when every path was asked for before.
-/

import Shaderworks.Pack
import Shaderworks.Pack.Files

set_option autoImplicit false

namespace Shaderworks

/-! ### Gathering sources -/

/-- The texts gathered so far, and the paths asked for, latest first. -/
structure Gathered where
  /-- The texts, by path. -/
  sources : Sources := NameMap.empty
  /-- The paths asked for, latest first. -/
  asked : List String := []

/-- What gathering leads to: what was gathered, and the failure that ended it, if there was one. -/
structure GatherResult where
  /-- What was gathered. -/
  gathered : Gathered
  /-- The failure that ended it. -/
  failure : Option Failure

/-- The paths that the pipelines of a manifest name, pipeline by pipeline: the shaders in stage
order, then the includes. -/
def Manifest.paths (m : Manifest) : List String :=
  m.pipelines.values.flatMap fun spec => spec.shaderPaths.map Prod.snd ++ spec.includes

/-- Asks for the paths of a queue that were not asked for before, and puts the paths that a text
asks to include at the end of the queue.  `budget` bounds the number of paths. -/
def gather (files : PackFiles) : (budget : Nat) → List String → Gathered → GatherResult
  | 0, _, g => ⟨g, none⟩
  | budget + 1, queue, g =>
      match queue.dropWhile fun path => g.asked.contains path with
      | [] => ⟨g, none⟩
      | path :: queue =>
          let asked := path :: g.asked
          match files.read path with
          | .error failure => ⟨{ g with asked }, some failure⟩
          | .ok none => gather files budget queue { g with asked }
          | .ok (some text) =>
              gather files budget (queue ++ Shader.includesOf text)
                { sources := g.sources.insert path text, asked }

/-- How many paths can turn up: those that a manifest names, and those that some text asks for. -/
def gatherBudget (files : PackFiles) (start : List String) : Nat :=
  start.length + (files.texts.flatMap Shader.includesOf).length + 1

/-- The texts that a manifest needs. -/
def gatherSources (files : PackFiles) (m : Manifest) : GatherResult :=
  gather files (gatherBudget files m.paths) m.paths {}

/-- Nothing is read when every path was asked for before. -/
theorem gather_done {files : PackFiles} {budget : Nat} {queue : List String} {g : Gathered}
    (h : ∀ path ∈ queue, path ∈ g.asked) : gather files budget queue g = ⟨g, none⟩ := by
  cases budget with
  | zero => rfl
  | succ budget =>
      have hdrop : (queue.dropWhile fun path => g.asked.contains path) = [] := by
        induction queue with
        | nil => rfl
        | cons path queue ih =>
            have hpath : g.asked.contains path = true := by
              simpa using h path (List.mem_cons_self ..)
            rw [List.dropWhile_cons, if_pos hpath]
            exact ih fun p hp => h p (List.mem_cons_of_mem _ hp)
      rw [gather, hdrop]

/-! ### Loading one pack -/

/-- A loaded pack or the failure, and the paths asked for in order, the manifest first. -/
structure Loaded where
  /-- The pack. -/
  result : Except Failure Pack
  /-- The paths asked for, in order. -/
  asked : List String

/-- The pack that some files hold. -/
def loadPack (manifestName : String) (files : PackFiles) : Loaded :=
  match files.read manifestName with
  | .error failure => ⟨.error failure, [manifestName]⟩
  | .ok none => ⟨.error (.manifestNotFound files.location manifestName), [manifestName]⟩
  | .ok (some text) =>
      match Manifest.ofJson text with
      | .error error =>
          ⟨.error (.manifest (Path.join files.location manifestName) error), [manifestName]⟩
      | .ok manifest =>
          let r := gatherSources files manifest
          let asked := manifestName :: r.gathered.asked.reverse
          match r.failure with
          | some failure => ⟨.error failure, asked⟩
          | none =>
              let origin := some files.location
              ⟨.ok { manifest, sources := r.gathered.sources, origin }, asked⟩

/-- The pack of a directory or an archive. -/
def loadPath (manifestName : String) (files : FileTree) (path : Path) : Except Failure Pack :=
  match PackFiles.ofPath files path with
  | .error failure => .error failure
  | .ok pack => (loadPack manifestName pack).result

/-! ### Discovering packs -/

/-- Whether something in a directory looks like a pack: a directory with a manifest, or a file with
the extension of archives. -/
def isCandidate (manifestName : String) (files : FileTree) (dir : Path) (name : String) : Bool :=
  let path := Path.join dir name
  if files.isDirectory path then files.isFile (Path.join path manifestName)
  else files.isFile path && Path.hasExtension name "zip"

/-- The packs among some names in a directory, by ascending name.  What cannot be loaded is left
out. -/
def packsNamed (manifestName : String) (files : FileTree) (dir : Path) (names : List String) :
    List Pack :=
  let candidates := names.filter (isCandidate manifestName files dir)
  (candidates.mergeSort fun a b => decide (a ≤ b)).filterMap fun name =>
    (loadPath manifestName files (Path.join dir name)).toOption

/-- The packs in a directory, which is made if it is missing, and the files afterwards. -/
def discover (manifestName : String) (files : FileTree) (dir : Path) : List Pack × FileTree :=
  match files.createDirectories dir with
  | (some _, files) => ([], files)
  | (none, files) =>
      match files.namesIn dir with
      | .error _ => ([], files)
      | .ok names => (packsNamed manifestName files dir names, files)

end Shaderworks
