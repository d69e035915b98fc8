/-
**When two shaders share their bytecode.**

Bytecode is found by key, so a compiler that has compiled one shader answers another from it exactly
when the two have the same key.  Keys are digests of the four components of a shader run together,
so this happens not only for one shader compiled twice: moving a character from the end of the name
to the start of the source leaves the key as it is.

Main results:

* `ShaderIdentity.told_apart_iff` — if their digests do not collide, two shaders have different
  keys, different files and bytecode of their own exactly when their components do not run together
  to the same text; they never do when the shaders are different and akin;
* `ShaderIdentity.shares_key_across_boundary` — two different shaders with one key.
-/

import Shaderworks.Proofs.Bytecode.Outcome

set_option autoImplicit false

namespace Shaderworks

namespace Compiler

variable {tools : Toolchain} {c : Compiler} {job job' : CompileJob} {a b : ShaderIdentity}
  {first : Artifact}

/-- A job with another key is answered as if the first had not been compiled. -/
theorem compile_compile_of_key_ne (ha : finalIdentity? tools c.maxDepth job = some a)
    (hb : finalIdentity? tools c.maxDepth job' = some b)
    (hfirst : (c.compile tools job).1 = .ok first) (hkey : a.key ≠ b.key) :
    ((c.compile tools job).2.compile tools job').1 = (c.compile tools job').1 := by
  -- An answer depends only on what is found under its key, which the first job left alone.
  have hfind := find?_compile ha hfirst b.key
  rw [if_neg (Ne.symm hkey)] at hfind
  rw [compile_fst, compile_fst, maxDepth_compile]
  cases hexpand : Shader.expand job'.sources c.maxDepth job'.source job'.name with
  | error fault => simp [answer, hexpand]
  | ok expanded =>
      rw [finalIdentity?_of_expand hexpand, Option.some.injEq] at hb
      simp only [answer, hexpand, hb, hfind]

/-- A job with the same key is answered with the bytecode of the first. -/
theorem compile_compile_of_key_eq (ha : finalIdentity? tools c.maxDepth job = some a)
    (hb : finalIdentity? tools c.maxDepth job' = some b)
    (hfirst : (c.compile tools job).1 = .ok first) (hkey : a.key = b.key) :
    ∃ second, ((c.compile tools job).2.compile tools job').1 = .ok second ∧
      second.name = job'.name ∧ second.bytecode = first.bytecode ∧ second.fromCache = true := by
  have hfind := find?_compile ha hfirst b.key
  rw [if_pos hkey.symm] at hfind
  rw [compile_fst, maxDepth_compile]
  cases hexpand : Shader.expand job'.sources c.maxDepth job'.source job'.name with
  | error fault => simp [finalIdentity?, hexpand] at hb
  | ok expanded =>
      rw [finalIdentity?_of_expand hexpand, Option.some.injEq] at hb
      refine ⟨artifact job' (tools.prepare job'.stage expanded) b.key first.bytecode true, ?_,
        rfl, rfl, rfl⟩
      simp only [answer, hexpand, hb, hfind]

end Compiler

namespace ShaderIdentity

/-- **Two shaders are told apart exactly when their components do not run together to the same
text.**  Then the digested bytes, the keys and the paths of their entries are different, and a
compiler answers each of them as if the other had not been compiled; else the second one is answered
with the bytecode of the first.  Different shaders are always told apart if they share name and
source, name and version, or source and version, hence if they differ in one component. -/
theorem told_apart_iff {a b : ShaderIdentity} (hdigest : NoCollision a b) :
    (a.preimage ≠ b.preimage ↔ a.text ≠ b.text) ∧
    (a.key ≠ b.key ↔ a.text ≠ b.text) ∧
    (∀ cache : Cache, cache.entryPath a.key ≠ cache.entryPath b.key ↔ a.text ≠ b.text) ∧
    (a ≠ b → Akin a b → a.text ≠ b.text) ∧
    ∀ (tools : Toolchain) (c : Compiler) (job job' : CompileJob) (first : Artifact),
      Compiler.finalIdentity? tools c.maxDepth job = some a →
      Compiler.finalIdentity? tools c.maxDepth job' = some b →
      (c.compile tools job).1 = .ok first →
        (a.text ≠ b.text →
          ((c.compile tools job).2.compile tools job').1 = (c.compile tools job').1) ∧
        (a.text = b.text → ∃ second,
          ((c.compile tools job).2.compile tools job').1 = .ok second ∧
            second.name = job'.name ∧ second.bytecode = first.bytecode ∧
            second.fromCache = true) := by
  have hkeys : a.key = b.key ↔ a.text = b.text := key_eq_iff hdigest
  refine ⟨not_congr preimage_eq_iff, not_congr hkeys,
    fun cache => not_congr (Cache.entryPath_inj.trans hkeys),
    fun hne hakin htext => hne (eq_of_text_eq hakin htext), ?_⟩
  intro tools c job job' first ha hb hfirst
  constructor
  · intro htext
    exact Compiler.compile_compile_of_key_ne ha hb hfirst fun h => htext (hkeys.1 h)
  · intro htext
    exact Compiler.compile_compile_of_key_eq ha hb hfirst (key_eq_of_text_eq htext)

/-- Two versions of a source are told apart: their digests are different. -/
theorem told_apart_of_edit :
    let a : ShaderIdentity := ⟨"a", "b\n", .vertex, "1.0"⟩
    let b : ShaderIdentity := ⟨"a", "c\n", .vertex, "1.0"⟩
    NoCollision a b ∧ a.key ≠ b.key := by
  intro a b
  have hdigest : Sha256.digest a.preimage ≠ Sha256.digest b.preimage := by decide +kernel
  have hcollision : NoCollision a b := fun h => absurd h hdigest
  have hakin : Akin a b := .inr (.inl ⟨rfl, rfl⟩)
  have htext := (told_apart_iff hcollision).2.2.2.1 (by decide) hakin
  exact ⟨hcollision, (told_apart_iff hcollision).2.1.2 htext⟩

/-- **Different shaders may share a key:** the first letter of a source may as well be the last of
the name. -/
theorem shares_key_across_boundary :
    let a : ShaderIdentity := ⟨"a", "b\n", .vertex, "1.0"⟩
    let b : ShaderIdentity := ⟨"ab", "\n", .vertex, "1.0"⟩
    a ≠ b ∧ a.preimage = b.preimage ∧ a.key = b.key := by
  intro a b
  have htext : a.text = b.text := by decide
  exact ⟨by decide, preimage_eq_iff.2 htext, key_eq_of_text_eq htext⟩

end ShaderIdentity

end Shaderworks
