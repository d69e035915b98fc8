/-
**Shader stages.**

A pipeline runs a vertex shader, a fragment shader and sometimes a geometry shader.

Main definitions:

* `Stage` — the three programmable stages;
* `Stage.tag` — the word that a stage contributes to a cache key;
* `Stage.label` — the word for a stage in messages.
-/

set_option autoImplicit false

namespace Shaderworks

/-- A programmable stage of a pipeline. -/
inductive Stage where
  /-- Runs once per vertex. -/
  | vertex
  /-- Runs once per fragment. -/
  | fragment
  /-- Runs once per primitive. -/
  | geometry
  deriving DecidableEq

namespace Stage

/-- The stages in the order in which a pipeline declares them. -/
def all : List Stage := [.vertex, .fragment, .geometry]

/-- The word that a stage contributes to a cache key. -/
def tag : Stage → String
  | vertex => "VERTEX_SHADER"
  | fragment => "FRAGMENT_SHADER"
  | geometry => "GEOMETRY_SHADER"

/-- The word for a stage in messages. -/
def label : Stage → String
  | vertex => "vertex"
  | fragment => "fragment"
  | geometry => "geometry"

theorem mem_all (s : Stage) : s ∈ all := by cases s <;> decide

end Stage

end Shaderworks
