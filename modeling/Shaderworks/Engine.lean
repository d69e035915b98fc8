/-
**The engine.**

The engine takes packs, refuses the defective ones, compiles the pipelines of the others and
catalogues those that compile.  A pipeline that does not compile is counted and left out; it never
costs the pack.

Main definitions:

* `Engine` — the settings, the compiler, the shelf of packs and the catalog of pipelines;
* `Engine.start` — an engine on a cache directory;
* `Engine.loadPack`, `Engine.loadPacks` — taking packs;
* `Engine.loadFrom`, `Engine.reload`, `Engine.reloadFrom` — taking the packs of a directory, and
  starting over;
* `LoadReport`, `LoadSummary` — what became of a pack and of several.

Main results:

* `Engine.loadPack_of_defect` — a defective pack changes nothing.
-/

import Shaderworks.Bytecode.Compiler
import Shaderworks.Pack.Loading
import Shaderworks.Pack.Shelf
import Shaderworks.Pipeline.Catalog
import Shaderworks.Settings

set_option autoImplicit false

namespace Shaderworks

/-- What became of an accepted pack. -/
structure LoadReport where
  /-- The name of the pack. -/
  pack : String
  /-- The number of its pipelines. -/
  found : Nat := 0
  /-- How many of them compiled. -/
  compiled : Nat := 0
  /-- How many were catalogued. -/
  registered : Nat := 0
  /-- How many did not compile. -/
  failed : Nat := 0
  /-- The names of those that were catalogued. -/
  pipelines : List String := []
  deriving DecidableEq

/-- What became of several packs. -/
structure LoadSummary where
  /-- The packs that were accepted. -/
  packsLoaded : Nat := 0
  /-- The packs that were refused. -/
  packsRejected : Nat := 0
  /-- The pipelines of the accepted packs. -/
  found : Nat := 0
  /-- How many of them compiled. -/
  compiled : Nat := 0
  /-- How many were catalogued. -/
  registered : Nat := 0
  /-- How many did not compile. -/
  failed : Nat := 0
  deriving DecidableEq

namespace LoadSummary

/-- The summary with one more accepted pack. -/
def add (s : LoadSummary) (r : LoadReport) : LoadSummary where
  packsLoaded := s.packsLoaded + 1
  packsRejected := s.packsRejected
  found := s.found + r.found
  compiled := s.compiled + r.compiled
  registered := s.registered + r.registered
  failed := s.failed + r.failed

/-- The summary with one more refused pack. -/
def reject (s : LoadSummary) : LoadSummary := { s with packsRejected := s.packsRejected + 1 }

/-- The summary in words. -/
def text (s : LoadSummary) : String :=
  "Shader pack loading complete: " ++ toString s.found ++ " found, " ++ toString s.compiled ++
    " compiled, " ++ toString s.registered ++ " registered (" ++ toString s.failed ++ " failed, " ++
    toString s.packsRejected ++ " packs rejected)"

end LoadSummary

/-- An engine; `τ` and `η` are the host's types of templates and handles. -/
structure Engine (τ η : Type) where
  /-- The settings. -/
  settings : Settings
  /-- The compiler with its cache. -/
  compiler : Compiler
  /-- The accepted packs. -/
  shelf : Shelf := {}
  /-- The pipelines. -/
  catalog : Catalog τ η := {}

namespace Engine

variable {τ η : Type}

/-- An engine on the cache directory of its settings, and the files afterwards. -/
def start (settings : Settings) (files : FileTree) : Except Failure (Engine τ η) × FileTree :=
  match Cache.mount files settings.cacheDir with
  | (.error fault, files) => (.error (.cacheDirectory settings.cacheDir fault.text), files)
  | (.ok cache, files) =>
      (.ok { settings, compiler := { cache, maxDepth := settings.maxDepth } }, files)

/-- The files around the engine. -/
def files (e : Engine τ η) : FileTree := e.compiler.cache.files

/-- The engine among other files. -/
def withFiles (e : Engine τ η) (files : FileTree) : Engine τ η :=
  { e with compiler := { e.compiler with cache := { e.compiler.cache with files := files } } }

/-! ### Compiling pipelines -/

/-- Compiles the shader of a pack that a pipeline declares for a stage. -/
def compileStage (tools : Toolchain) (c : Compiler) (pack : Pack) (pipeline path : String)
    (stage : Stage) : Except Failure Artifact × Compiler :=
  match pack.source? path with
  | none => (.error (.missingStage pipeline stage), c)
  | some source =>
      c.compile tools
        { sources := pack.sources, name := path, source, stage, version := pack.version }

/-- Compiles the geometry shader, if there is one. -/
def compileGeometry (tools : Toolchain) (c : Compiler) (pack : Pack) (pipeline : String) :
    Option String → Except Failure (Option Artifact) × Compiler
  | none => (.ok none, c)
  | some path =>
      match compileStage tools c pack pipeline path .geometry with
      | (.error failure, c) => (.error failure, c)
      | (.ok artifact, c) => (.ok (some artifact), c)

/-- Compiles the shaders of a pipeline, stage by stage; the first failure ends it. -/
def compilePipeline (tools : Toolchain) (c : Compiler) (pack : Pack) (name : String)
    (spec : PipelineSpec) : Except Failure (Pipeline η) × Compiler :=
  match spec.vertex, spec.fragment with
  | none, _ => (.error (.missingStage name .vertex), c)
  | some _, none => (.error (.missingStage name .fragment), c)
  | some vertexPath, some fragmentPath =>
      match compileStage tools c pack name vertexPath .vertex with
      | (.error failure, c) => (.error failure, c)
      | (.ok vertex, c) =>
          match compileStage tools c pack name fragmentPath .fragment with
          | (.error failure, c) => (.error failure, c)
          | (.ok fragment, c) =>
              match compileGeometry tools c pack name spec.geometry with
              | (.error failure, c) => (.error failure, c)
              | (.ok geometry, c) =>
                  (.ok { name, pack, vertex, fragment, geometry, drawState := .ofSpec spec }, c)

/-! ### Taking packs -/

/-- Compiles a pipeline of a pack and catalogues it if that succeeds; the report is kept up. -/
def loadPipeline (tools : Toolchain) (pack : Pack) (state : Engine τ η × LoadReport)
    (entry : String × PipelineSpec) : Engine τ η × LoadReport :=
  let (e, r) := state
  match compilePipeline tools e.compiler pack entry.1 entry.2 with
  | (.error _, compiler) =>
      ({ e with compiler }, { r with found := r.found + 1, failed := r.failed + 1 })
  | (.ok pipeline, compiler) =>
      ({ e with compiler, catalog := (e.catalog.register pipeline).2 },
        { r with
          found := r.found + 1
          compiled := r.compiled + 1
          registered := r.registered + 1
          pipelines := r.pipelines ++ [entry.1] })

/-- Takes a pack: unless it has a defect, it goes on the shelf and its pipelines are compiled. -/
def loadPack (tools : Toolchain) (e : Engine τ η) (pack : Pack) :
    Except PackDefect LoadReport × Engine τ η :=
  match pack.check with
  | .error defect => (.error defect, e)
  | .ok () =>
      let start : Engine τ η × LoadReport :=
        ({ e with shelf := e.shelf.register pack }, { pack := pack.name })
      let (e, r) := pack.pipelines.entries.foldl (loadPipeline tools pack) start
      (.ok r, e)

/-- Whether the pipeline of a name is catalogued for the main pass. -/
def inMainPass (e : Engine τ η) (name : String) : Bool :=
  match e.catalog.get? name with
  | some p => p.drawState.pass == .main
  | none => false

/-- Several packs being taken: the engine, the summary, and the names to override. -/
structure Progress (τ η : Type) where
  /-- The engine so far. -/
  engine : Engine τ η
  /-- The summary so far. -/
  summary : LoadSummary := {}
  /-- The names of catalogued pipelines of the main pass, as they came. -/
  mainNames : List String := []

/-- Takes one of several packs.  A refused one is only counted. -/
def loadNext (tools : Toolchain) (p : Progress τ η) (pack : Pack) : Progress τ η :=
  match p.engine.loadPack tools pack with
  | (.error _, _) => { p with summary := p.summary.reject }
  | (.ok report, engine) =>
      { engine
        summary := p.summary.add report
        mainNames := p.mainNames ++ report.pipelines.filter engine.inMainPass }

/-- Lets pipelines override the host pipelines of their names, and enables overriding if any
pipeline was catalogued. -/
def overrideMain (catalog : Catalog τ η) (names : List String) (registered : Nat) : Catalog τ η :=
  let catalog := names.foldl (fun c name => (c.setOverride name name).2) catalog
  if 0 < registered then catalog.setEnabled true else catalog

/-- Takes several packs.  If the settings say so, their pipelines of the main pass then override the
host pipelines of their names. -/
def loadPacks (tools : Toolchain) (e : Engine τ η) (packs : List Pack) : LoadSummary × Engine τ η :=
  let p := packs.foldl (loadNext tools) { engine := e }
  if p.engine.settings.autoOverride then
    (p.summary,
      { p.engine with
        catalog := overrideMain p.engine.catalog p.mainNames p.summary.registered })
  else (p.summary, p.engine)

/-- Drops every pipeline and pack. -/
def clear (e : Engine τ η) : Engine τ η := { e with catalog := e.catalog.clear, shelf := {} }

/-- Drops every pipeline and pack, then takes packs. -/
def reload (tools : Toolchain) (e : Engine τ η) (packs : List Pack) : LoadSummary × Engine τ η :=
  e.clear.loadPacks tools packs

/-- Takes the packs of a directory. -/
def loadFrom (tools : Toolchain) (e : Engine τ η) (dir : Path) : LoadSummary × Engine τ η :=
  let (packs, files) := discover e.settings.manifestName e.files dir
  (e.withFiles files).loadPacks tools packs

/-- Drops every pipeline and pack, then takes the packs of a directory. -/
def reloadFrom (tools : Toolchain) (e : Engine τ η) (dir : Path) : LoadSummary × Engine τ η :=
  let (packs, files) := discover e.settings.manifestName e.files dir
  (e.withFiles files).reload tools packs

/-- The pack of a directory or an archive, read as the engine would. -/
def readPack (e : Engine τ η) (path : Path) : Except Failure Pack :=
  loadPath e.settings.manifestName e.files path

/-- A defective pack changes nothing. -/
theorem loadPack_of_defect {tools : Toolchain} {e : Engine τ η} {pack : Pack} {defect : PackDefect}
    (h : pack.check = .error defect) : e.loadPack tools pack = (.error defect, e) := by
  rw [loadPack, h]

end Engine

end Shaderworks
