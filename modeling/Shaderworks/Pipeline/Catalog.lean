/-
**The catalog of pipelines.**

The pipelines of all packs are catalogued by name, and the host's own pipelines may be overridden by
them.  Every pipeline that was ever catalogued keeps its number; whoever still holds on to one that
was replaced may go on using it.  An override names its pipeline, so it outlives a replacement.

Main definitions:

* `Catalog` — the pipelines, the names in use, and the overrides;
* `Catalog.register`, `Catalog.activate`, `Catalog.clear` — pipelines come, are built and go;
* `Catalog.override?` — the handle to bind in the stead of a host pipeline;
* `CatalogStats` — the numbers of pipelines and overrides.
-/

import Shaderworks.Data.Table
import Shaderworks.Pipeline

set_option autoImplicit false

namespace Shaderworks

/-- The number that a pipeline is given when it is catalogued. -/
abbrev PipelineId := Nat

/-- How many pipelines and overrides a catalog has. -/
structure CatalogStats where
  /-- The pipelines in use. -/
  registered : Nat
  /-- Those of them that were built. -/
  initialized : Nat
  /-- The overrides. -/
  overrides : Nat
  /-- Whether overriding is enabled. -/
  overridesEnabled : Bool
  deriving DecidableEq

/-- The numbers in words. -/
def CatalogStats.text (stats : CatalogStats) : String :=
  "Registered " ++ toString stats.registered ++ " custom pipelines (" ++
    toString stats.initialized ++ " initialized, " ++ toString stats.overrides ++ " overrides)"

/-- The pipelines of all packs, and what they override. -/
structure Catalog (τ η : Type) where
  /-- Every pipeline that was ever catalogued; its number is its place. -/
  pipelines : List (Pipeline η) := []
  /-- The numbers in use, in the order of their arrival. -/
  slots : List PipelineId := []
  /-- The numbers in use, by name. -/
  index : NameMap PipelineId := NameMap.empty
  /-- Names of host pipelines, with the names of the pipelines bound in their stead. -/
  overrides : Table String String := Table.empty
  /-- Whether overriding is enabled. -/
  enabled : Bool := false
  /-- What the host was made to do, in order. -/
  events : List (HostEvent τ η) := []

namespace Catalog

variable {τ η : Type}

/-- The catalog without pipelines. -/
def empty : Catalog τ η := {}

/-! ### Asking -/

/-- The pipeline with a number, in use or not. -/
def held? (c : Catalog τ η) (id : PipelineId) : Option (Pipeline η) := c.pipelines[id]?

/-- The pipeline with a number, if the number is in use. -/
def byId? (c : Catalog τ η) (id : PipelineId) : Option (Pipeline η) :=
  if id ∈ c.slots then c.held? id else none

/-- The pipeline of a name. -/
def get? (c : Catalog τ η) (name : String) : Option (Pipeline η) :=
  (c.index.get? name).bind c.byId?

/-- Whether a name is in use. -/
def contains (c : Catalog τ η) (name : String) : Bool := c.index.contains name

/-- The names in use, in ascending order. -/
def names (c : Catalog τ η) : List String := c.index.names

/-- The number of pipelines in use. -/
def size (c : Catalog τ η) : Nat := c.slots.length

/-- The handle to bind in the stead of a host pipeline: overriding is enabled, the host pipeline is
overridden, and the pipeline in its stead was built. -/
def override? (c : Catalog τ η) (host : String) : Option η :=
  if c.enabled then
    ((c.overrides.get? host).bind c.get?).bind Pipeline.handle?
  else none

/-- The numbers of pipelines and overrides. -/
def stats (c : Catalog τ η) : CatalogStats where
  registered := c.size
  initialized := (c.slots.filterMap c.byId?).countP Pipeline.isBuilt
  overrides := c.overrides.size
  overridesEnabled := c.enabled

/-! ### Pipelines -/

/-- Replaces a pipeline by what a step made of it, and notes what the host was made to do. -/
def update (c : Catalog τ η) (id : PipelineId) (step : Pipeline η × List (HostEvent τ η)) :
    Catalog τ η :=
  { c with pipelines := c.pipelines.set id step.1, events := c.events ++ step.2 }

/-- Disposes of the pipeline with a number. -/
def disposeOf (c : Catalog τ η) (id : PipelineId) : Catalog τ η :=
  match c.held? id with
  | none => c
  | some p => c.update id p.dispose

/-- Builds the pipeline with a number, if it waits; `answer` is what the host answers. -/
def buildOf (c : Catalog τ η) (answer : BuildRequest τ → Except Cause η) (template : τ)
    (id : PipelineId) : Except Failure Unit × Catalog τ η :=
  match c.held? id with
  | none => (.ok (), c)
  | some p =>
      match p.build answer template with
      | .error failure => (.error failure, c)
      | .ok step => (.ok (), c.update id step)

/-- Catalogues a pipeline under its name and gives it the next number.  An earlier pipeline of that
name goes out of use and is disposed of. -/
def register (c : Catalog τ η) (p : Pipeline η) : PipelineId × Catalog τ η :=
  let id := c.pipelines.length
  let old := c.index.get? p.name
  let slots := match old with
    | none => c.slots
    | some old => c.slots.erase old
  let c := { c with
    pipelines := c.pipelines ++ [p]
    slots := slots ++ [id]
    index := c.index.insert p.name id }
  match old with
  | none => (id, c)
  | some old => (id, c.disposeOf old)

/-- Builds the pipeline of a name from a template.  The answer tells whether there is one. -/
def activate (c : Catalog τ η) (answer : BuildRequest τ → Except Cause η) (name : String)
    (template : τ) : Except Failure Bool × Catalog τ η :=
  match c.index.get? name with
  | none => (.ok false, c)
  | some id =>
      match c.buildOf answer template id with
      | (.error failure, c) => (.error failure, c)
      | (.ok (), c) => (.ok true, c)

/-- Takes notice of a template; a failure to build is passed over. -/
def notice (c : Catalog τ η) (answer : BuildRequest τ → Except Cause η) (name : String)
    (template : τ) : Catalog τ η :=
  (c.activate answer name template).2

/-- Disposes of all pipelines in use, drops all overrides and disables overriding. -/
def clear (c : Catalog τ η) : Catalog τ η :=
  let c' := c.slots.foldl disposeOf c
  { c' with slots := [], index := NameMap.empty, overrides := Table.empty, enabled := false }

/-! ### Overrides -/

/-- Binds a pipeline in the stead of a host pipeline.  A name that is not in use is refused. -/
def setOverride (c : Catalog τ η) (host custom : String) : Bool × Catalog τ η :=
  if c.contains custom then (true, { c with overrides := c.overrides.put host custom })
  else (false, c)

/-- Drops the override of a host pipeline.  The answer tells whether there was one. -/
def removeOverride (c : Catalog τ η) (host : String) : Bool × Catalog τ η :=
  (c.overrides.contains host, { c with overrides := c.overrides.erase host })

/-- Enables or disables overriding. -/
def setEnabled (c : Catalog τ η) (enabled : Bool) : Catalog τ η := { c with enabled := enabled }

end Catalog

end Shaderworks
