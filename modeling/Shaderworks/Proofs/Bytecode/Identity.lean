/-
**What a cache key tells apart.**

A key is the digest of four components written one after another with nothing between them.  The
tag of the stage is the only landmark in that text, and the other components may hold it too, so
two shaders are told apart exactly when their four components do not run together to the same text.
Two of the components being equal is often enough to read the other two off the text.

Main definitions:

* `ShaderIdentity` — the four components;
* `ShaderIdentity.text` — the components one after another;
* `ShaderIdentity.key` — the key of a shader;
* `ShaderIdentity.Akin` — the pairs of identities that are always told apart.

Main results:

* `ShaderIdentity.preimage_eq_iff` — the digested bytes are equal exactly when the texts are;
* `ShaderIdentity.eq_of_text_eq` — identities that are akin have different texts;
* `ShaderIdentity.key_eq_iff` — if the digests do not collide, keys are equal exactly when the
  texts are;
* `Cache.entryPath_inj` — entries of different keys have different paths.
-/

import Shaderworks.Proofs.Bytecode.CacheEntries

set_option autoImplicit false

namespace Shaderworks

/-- What a piece of bytecode was compiled from, and for which version of its pack. -/
structure ShaderIdentity where
  /-- The name of the shader. -/
  name : String
  /-- The source that the compiler sees. -/
  source : String
  /-- The stage. -/
  stage : Stage
  /-- The version of the pack. -/
  version : String
  deriving DecidableEq

/-! ### Tags as landmarks -/

namespace Stage

/-- No tag begins another, so a tag at the start of a text is read off it. -/
theorem tag_append_inj {s t : Stage} {xs ys : List Char}
    (h : s.tag.toList ++ xs = t.tag.toList ++ ys) : s = t ∧ xs = ys := by
  cases s <;> cases t <;> simp_all [tag]

/-- No tag ends another, so a tag at the end of a text is read off it. -/
theorem append_tag_inj {s t : Stage} {xs ys : List Char}
    (h : xs ++ s.tag.toList = ys ++ t.tag.toList) : s = t ∧ xs = ys := by
  have hrev := congrArg List.reverse h
  rw [List.reverse_append, List.reverse_append] at hrev
  cases s <;> cases t <;> simp_all [tag]

end Stage

namespace ShaderIdentity

/-- The four components one after another. -/
def text (i : ShaderIdentity) : String := i.name ++ i.source ++ i.stage.tag ++ i.version

/-- The bytes that are digested for the key. -/
def preimage (i : ShaderIdentity) : Bytes := CacheKey.preimage i.name i.source i.stage i.version

/-- The key under which the bytecode of the shader is filed. -/
def key (i : ShaderIdentity) : CacheKey := CacheKey.derive i.name i.source i.stage i.version

variable {a b : ShaderIdentity}

theorem ext {a b : ShaderIdentity} (hname : a.name = b.name) (hsource : a.source = b.source)
    (hstage : a.stage = b.stage) (hversion : a.version = b.version) : a = b := by
  cases a; cases b; cases hname; cases hsource; cases hstage; cases hversion; rfl

theorem toList_text (i : ShaderIdentity) :
    i.text.toList = i.name.toList ++ i.source.toList ++ i.stage.tag.toList ++ i.version.toList := by
  simp [text, String.toList_append]

/-- The digested bytes are those of the text. -/
theorem preimage_eq_ofText (i : ShaderIdentity) : i.preimage = Bytes.ofText i.text := by
  simp [preimage, CacheKey.preimage, Bytes.ofText, text, String.toByteArray_append]

/-- The digested bytes are equal exactly when the texts are. -/
theorem preimage_eq_iff : a.preimage = b.preimage ↔ a.text = b.text := by
  rw [preimage_eq_ofText, preimage_eq_ofText]
  exact ⟨Bytes.ofText_injective, fun h => h ▸ rfl⟩

/-! ### Identities that are always told apart -/

/-- Two identities share two components from which the text gives away the rest: the two before the
tag, the first and the last, or the two around the tag. -/
def Akin (a b : ShaderIdentity) : Prop :=
  (a.name = b.name ∧ a.source = b.source) ∨ (a.name = b.name ∧ a.version = b.version) ∨
    (a.source = b.source ∧ a.version = b.version)

/-- Different identities that are akin have different texts. -/
theorem eq_of_text_eq (hakin : Akin a b) (h : a.text = b.text) : a = b := by
  have hlist := congrArg String.toList h
  rw [toList_text, toList_text] at hlist
  -- What the two share is cancelled, and the tag can then be read off the end that is left open.
  rcases hakin with ⟨hname, hsource⟩ | ⟨hname, hversion⟩ | ⟨hsource, hversion⟩
  · rw [hname, hsource] at hlist
    simp only [List.append_assoc, List.append_cancel_left_eq] at hlist
    obtain ⟨hstage, hrest⟩ := Stage.tag_append_inj hlist
    exact ext hname hsource hstage (String.toList_injective hrest)
  · rw [hname, hversion, List.append_cancel_right_eq, List.append_assoc, List.append_assoc,
      List.append_cancel_left_eq] at hlist
    obtain ⟨hstage, hrest⟩ := Stage.append_tag_inj hlist
    exact ext hname (String.toList_injective hrest) hstage hversion
  · rw [hsource, hversion, List.append_cancel_right_eq] at hlist
    obtain ⟨hstage, hrest⟩ := Stage.append_tag_inj hlist
    exact ext (String.toList_injective (List.append_cancel_right hrest)) hsource hstage hversion

/-! ### Keys and entries -/

/-- The digests of two identities do not collide: they are equal only if the digested bytes are. -/
def NoCollision (a b : ShaderIdentity) : Prop :=
  Sha256.digest a.preimage = Sha256.digest b.preimage → a.preimage = b.preimage

theorem key_eq_of_text_eq (h : a.text = b.text) : a.key = b.key :=
  CacheKey.eq_of_bytes_eq (congrArg Sha256.digest (preimage_eq_iff.2 h))

/-- Without a collision the keys are equal exactly when the texts are. -/
theorem key_eq_iff (hdigest : NoCollision a b) : a.key = b.key ↔ a.text = b.text :=
  ⟨fun h => preimage_eq_iff.1 (hdigest (congrArg CacheKey.bytes h)), key_eq_of_text_eq⟩

end ShaderIdentity

/-- Entries of different keys have different paths. -/
theorem Cache.entryPath_inj {cache : Cache} {j k : CacheKey} :
    cache.entryPath j = cache.entryPath k ↔ j = k := by
  refine ⟨fun h => ?_, fun h => h ▸ rfl⟩
  have hsegments := congrArg Path.segments h
  rw [segments_entryPath, segments_entryPath] at hsegments
  exact fileName_injective (List.cons.inj (List.append_cancel_left hsegments)).1

end Shaderworks
