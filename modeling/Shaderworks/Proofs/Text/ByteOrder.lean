/-
**Texts in the order of their bytes.**

Texts are ordered character by character, and file names byte by byte.  The two orders are the same: of
two characters the smaller one has the smaller byte where their bytes first differ, however many bytes
each of them has.

Main results:

* `Bytes.ofText_eq` — the bytes of a text, character by character;
* `Bytes.ofText_lt_iff` — **a text is before another exactly when its bytes are.**
-/

import Shaderworks.Data.Bytes
import Mathlib.Data.List.Basic

set_option autoImplicit false

namespace Shaderworks.Bytes

open String (utf8EncodeChar)

/-- A smaller character has smaller bytes, whatever follows. -/
theorem utf8EncodeChar_append_lt {c d : Char} (h : c < d) (xs ys : Bytes) :
    utf8EncodeChar c ++ xs < utf8EncodeChar d ++ ys := by
  have hlt : c.val.toNat < d.val.toNat := h
  have hbound : d.val.toNat < 1114112 := by
    rcases d.valid with hlow | hhigh
    · exact Nat.lt_trans hlow (by decide)
    · exact hhigh.2
  -- Every byte has six bits of the character, so each is the last six of a quotient.
  have hdigits : ∀ n, n / 4096 = n / 64 / 64 ∧ n / 262144 = n / 64 / 64 / 64 := by omega
  unfold utf8EncodeChar
  generalize c.val.toNat = m at *
  generalize d.val.toNat = n at *
  simp only [(hdigits m).1, (hdigits m).2, (hdigits n).1, (hdigits n).2]
  clear hdigits
  split_ifs <;>
    simp only [List.cons_append, List.nil_append, List.cons_lt_cons_iff, UInt8.lt_iff_toNat_lt,
      UInt8.toNat_ofNat', ← UInt8.toNat_inj] <;>
    omega

theorem flatMap_utf8EncodeChar_lt {s t : List Char} (h : s < t) :
    s.flatMap utf8EncodeChar < t.flatMap utf8EncodeChar := by
  induction s generalizing t with
  | nil =>
      cases t with
      | nil => exact absurd h (by decide)
      | cons d ds =>
          have hpos : utf8EncodeChar d ≠ [] := by
            unfold utf8EncodeChar
            dsimp only
            split_ifs <;> simp
          obtain ⟨b, bs, hbytes⟩ := List.exists_cons_of_ne_nil hpos
          rw [List.flatMap_cons, hbytes]
          exact List.nil_lt_cons ..
  | cons c cs ih =>
      cases t with
      | nil => exact absurd h (by simp)
      | cons d ds =>
          rw [List.flatMap_cons, List.flatMap_cons]
          rcases List.cons_lt_cons_iff.1 h with hlt | ⟨rfl, hrest⟩
          · exact utf8EncodeChar_append_lt hlt _ _
          · exact List.append_left_lt (ih hrest)

/-- The bytes of a text are those of its characters. -/
theorem ofText_eq (text : String) : ofText text = text.toList.flatMap utf8EncodeChar := by
  rw [ofText, ← String.utf8Encode_toList, List.utf8Encode, List.data_toByteArray]

/-- **A text is before another exactly when its bytes are.** -/
theorem ofText_lt_iff {s t : String} : ofText s < ofText t ↔ s < t := by
  have hmono : ∀ {s t : String}, s < t → ofText s < ofText t := by
    intro s t h
    rw [ofText_eq, ofText_eq]
    exact flatMap_utf8EncodeChar_lt (String.lt_iff.1 h)
  refine ⟨fun h => ?_, hmono⟩
  by_contra hnot
  by_cases hback : t < s
  · exact List.lt_asymm h (hmono hback)
  · have heq : s = t := String.le_antisymm (String.not_lt.1 hback) (String.not_lt.1 hnot)
    exact List.lt_irrefl _ (heq ▸ h)

end Shaderworks.Bytes
