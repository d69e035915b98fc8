/-
**Defects of packs.**

What makes a pack unusable as a whole, before any of its shaders is compiled.

Main definitions:

* `PackDefect` — the five defects;
* `PackDefect.message` — the defect in words.
-/

import Shaderworks.Shader.Stage

set_option autoImplicit false

namespace Shaderworks

/-- What makes a pack unusable. -/
inductive PackDefect where
  /-- The pack has no name. -/
  | missingName
  /-- The pack has no version. -/
  | missingVersion (pack : String)
  /-- The pack describes no pipeline. -/
  | noPipelines (pack : String)
  /-- A pipeline has neither a vertex nor a fragment shader. -/
  | noShaders (pack pipeline : String)
  /-- A pipeline declares a shader that the pack does not hold. -/
  | missingShader (pack pipeline : String) (stage : Stage) (path : String)
  deriving DecidableEq

/-- The defect in words. -/
def PackDefect.message : PackDefect → String
  | missingName => "shader pack missing name"
  | missingVersion pack => "shader pack " ++ pack ++ " missing version"
  | noPipelines pack => "shader pack " ++ pack ++ " has no pipelines defined"
  | noShaders pack pipeline => "pipeline " ++ pipeline ++ " in pack " ++ pack ++ " has no shaders"
  | missingShader pack pipeline stage path =>
      "pipeline " ++ pipeline ++ " in pack " ++ pack ++ " references missing " ++ stage.label ++
        " shader: " ++ path

end Shaderworks
