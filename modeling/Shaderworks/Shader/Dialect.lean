/-
**Shader dialects.**

Shaders come in two dialects.  In the native one every resource has an explicit place; in the legacy
one uniforms and samplers are declared without.  A source is taken for legacy when it mentions a
uniform or a sampler and never qualifies anything by binding or location.

Main definitions:

* `Dialect`, `Dialect.ofSource` — the dialect of a source;
* `mentionsResource`, `hasQualifier` — the two marks that decide it.

Main results:

* `Dialect.ofSource_eq_legacy_iff` — a source is legacy exactly when it bears the first mark and
  lacks the second.
-/

import Shaderworks.Text.Blank
import Shaderworks.Text.LetterCase
import Shaderworks.Text.Search

set_option autoImplicit false

namespace Shaderworks

open Text

/-- The dialect of a shader source. -/
inductive Dialect where
  /-- Every resource has an explicit binding or location, or there is none. -/
  | native
  /-- Resources are declared without binding or location. -/
  | legacy
  deriving DecidableEq

namespace Dialect

/-- Whether a lower-case source mentions a uniform or a sampler. -/
def mentionsResource (low : List Char) : Bool :=
  occursIn "uniform ".toList low || occursIn "sampler2d".toList low ||
    occursIn "samplercube".toList low

/-- Whether a lower-case source, its blanks left out, has a binding or location qualifier. -/
def hasQualifier (low : List Char) : Bool :=
  let compact := low.filter fun c => !isBlank c
  occursIn "layout(binding".toList compact || occursIn "layout(location".toList compact

/-- The dialect of a source, whatever the case of its letters. -/
def ofSource (source : String) : Dialect :=
  let low := lower source.toList
  if mentionsResource low && !hasQualifier low then legacy else native

/-- A source is legacy exactly when it mentions a resource and has no qualifier. -/
theorem ofSource_eq_legacy_iff {source : String} :
    ofSource source = legacy ↔
      mentionsResource (lower source.toList) = true ∧
        hasQualifier (lower source.toList) = false := by
  simp only [ofSource]
  split
  · next h => simpa using h
  · next h => simpa using h

end Dialect

end Shaderworks
