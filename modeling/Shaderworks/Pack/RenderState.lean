/-
**Render state in manifests.**

A pipeline asks for a way of blending, for faces to cull and for a place in the frame.  Blending and
culling are given by words whose case does not matter; an unknown word stands for the default, so
that a slip in a manifest never costs the pack.

Main definitions:

* `BlendMode`, `CullFace`, `Pass` — the three settings;
* `BlendMode.ofWord`, `CullFace.ofWord` — their meaning of any word;
* `BlendMode.word`, `CullFace.word`, `Pass.word` — the words they are written as.

Main results:

* `BlendMode.ofWord_word`, `CullFace.ofWord_word` — what is written is read back;
* `BlendMode.ofWord_congr`, `CullFace.ofWord_congr` — words that differ in case only mean the same.
-/

set_option autoImplicit false

namespace Shaderworks

/-- A word with its ASCII letters made small. -/
def lowerWord (word : String) : String := String.ofList (word.toList.map Char.toLower)

/-- How the colours of a pipeline are blended. -/
inductive BlendMode where
  /-- Without blending. -/
  | solid
  /-- Without blending, and fragments are discarded by their alpha. -/
  | cutout
  /-- By alpha. -/
  | translucent
  /-- By adding. -/
  | add
  /-- By multiplying. -/
  | multiply
  deriving DecidableEq

namespace BlendMode

/-- The word that a mode is written as. -/
def word : BlendMode → String
  | solid => "opaque"
  | cutout => "cutout"
  | translucent => "translucent"
  | add => "add"
  | multiply => "multiply"

/-- The mode that a small word stands for, unless it is unknown. -/
def known? (small : String) : Option BlendMode :=
  if small = "opaque" ∨ small = "off" then some solid
  else if small = "cutout" then some cutout
  else if small = "translucent" ∨ small = "alpha" then some translucent
  else if small = "add" then some add
  else if small = "multiply" then some multiply
  else none

/-- The mode that any word stands for. -/
def ofWord (word : String) : BlendMode := (known? (lowerWord word)).getD solid

theorem ofWord_word (mode : BlendMode) : ofWord mode.word = mode := by
  cases mode <;> decide

theorem ofWord_congr {v w : String} (h : lowerWord v = lowerWord w) : ofWord v = ofWord w := by
  rw [ofWord, ofWord, h]

end BlendMode

/-- Which faces of a primitive are culled. -/
inductive CullFace where
  /-- No face. -/
  | none
  /-- The front. -/
  | front
  /-- The back. -/
  | back
  deriving DecidableEq

namespace CullFace

/-- The word that a choice is written as. -/
def word : CullFace → String
  | none => "none"
  | front => "front"
  | back => "back"

/-- The choice that a small word stands for, unless it is unknown. -/
def known? (small : String) : Option CullFace :=
  if small = "none" ∨ small = "off" then some none
  else if small = "front" then some front
  else if small = "back" then some back
  else Option.none

/-- The choice that any word stands for. -/
def ofWord (word : String) : CullFace := (known? (lowerWord word)).getD back

theorem ofWord_word (face : CullFace) : ofWord face.word = face := by
  cases face <;> decide

theorem ofWord_congr {v w : String} (h : lowerWord v = lowerWord w) : ofWord v = ofWord w := by
  rw [ofWord, ofWord, h]

end CullFace

/-- Where in the frame a pipeline runs. -/
inductive Pass where
  /-- While the scene is drawn. -/
  | main
  /-- After the scene is drawn. -/
  | postProcess
  deriving DecidableEq

/-- The word that a pass is written as. -/
def Pass.word : Pass → String
  | main => "main"
  | postProcess => "post_process"

end Shaderworks
