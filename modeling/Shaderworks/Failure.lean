/-
**Failures.**

Everything that can go wrong between finding a pack and drawing with it.  Some failures never leave
the part that met them: a shader that cannot be converted is compiled as it is, and bytecode that
cannot be stored is kept in memory.  They are listed all the same, so that every report has one
form.

Main definitions:

* `Failure` — the failures;
* `Failure.message` — the failure in words.
-/

import Shaderworks.Data.Cause
import Shaderworks.Files.Path
import Shaderworks.Json.Reading
import Shaderworks.Pack.Defect
import Shaderworks.Shader.Expansion

set_option autoImplicit false

namespace Shaderworks

/-- What can go wrong. -/
inductive Failure where
  /-- A pack is unusable as a whole. -/
  | defect (defect : PackDefect)
  /-- A manifest cannot be read. -/
  | manifest (path : Path) (error : Json.ReadError)
  /-- An archive cannot be read. -/
  | archive (path : Path) (reason : String)
  /-- A pack has no manifest. -/
  | manifestNotFound (path : Path) (manifest : String)
  /-- The includes of a shader cannot be expanded. -/
  | expansion (fault : Shader.IncludeFault)
  /-- A legacy shader cannot be converted. -/
  | conversion (name : String) (cause : Cause)
  /-- The compiler refuses a shader. -/
  | compilation (name : String) (stage : Stage) (cause : Cause)
  /-- The directory of the cache cannot be made. -/
  | cacheDirectory (path : Path) (reason : String)
  /-- An entry of the cache cannot be read, written or removed. -/
  | cacheEntry (path : Path) (reason : String)
  /-- A pipeline lacks a shader that it cannot be built without. -/
  | missingStage (pipeline : String) (stage : Stage)
  /-- The host cannot build a pipeline. -/
  | pipelineBuild (name : String) (cause : Cause)
  /-- A file cannot be read. -/
  | file (reason : String)
  deriving DecidableEq

/-- A read error in words. -/
def Json.ReadError.text : Json.ReadError → String
  | fault .malformed => "malformed JSON"
  | fault .truncated => "unexpected end of JSON"
  | problem p => p.text

/-- An include fault in words. -/
def Shader.IncludeFault.message : Shader.IncludeFault → String
  | notFound path origin line =>
      "Include not found: '" ++ path ++ "' (referenced in " ++ origin ++ " at line " ++
        toString line ++ ")"
  | tooDeep path limit =>
      "Include depth exceeded " ++ toString limit ++
        " levels - possible circular include at: " ++ path

namespace Failure

/-- The failure in words. -/
def message : Failure → String
  | defect d => "Pack validation failed: " ++ d.message
  | manifest path error => "Invalid manifest in " ++ path ++ ": " ++ error.text
  | archive path reason => "Archive error in " ++ path ++ ": " ++ reason
  | manifestNotFound path name => "Manifest '" ++ name ++ "' not found in " ++ path
  | expansion fault => fault.message
  | conversion name cause => "Dialect conversion failed for " ++ name ++ ": " ++ cause.text
  | compilation name stage cause =>
      "Shader compilation failed: " ++ name ++ " (" ++ stage.label ++ "): " ++ cause.text
  | cacheDirectory path reason =>
      "Failed to create shader cache directory " ++ path ++ ": " ++ reason
  | cacheEntry path reason => "Shader cache I/O error on " ++ path ++ ": " ++ reason
  | missingStage pipeline stage =>
      "Pipeline " ++ pipeline ++ " is missing its " ++ stage.label ++ " shader source"
  | pipelineBuild name cause => "Failed to initialize pipeline " ++ name ++ ": " ++ cause.text
  | file reason => "IO error: " ++ reason

end Failure

end Shaderworks
