/-
**What the scanners of words, strings and numerals look at.**

A scanner walks through a text once.  What it takes off the front it takes whatever stands behind, as
long as the next character stays the same; only numerals look at that one, to see where they end.

Main definitions:

* `Takes` — a scanner takes something off every text that goes on in the same way.

Main results:

* `takes_scanKeyword`, `takes_scanQuoted`, `takes_scanNumber` — so do the scanners of words, strings
  and numbers.
-/

import Shaderworks.Proofs.Json.Spelling
import Shaderworks.Proofs.Json.Written
import Mathlib.Data.List.DropRight

set_option autoImplicit false

namespace Shaderworks.Json

variable {ρ : Type} {used rest text : List Char}

/-! ### Taking something off a text -/

/-- A scanner takes `used` off every text that goes on behind it with the character that `rest`
starts with, and goes on behind it. -/
def Takes (scan : List Char → ρ) (used rest : List Char) (result : List Char → ρ) : Prop :=
  ∀ rest', rest'.head? = rest.head? → scan (used ++ rest') = result rest'

/-- What takes the whole text is not asked about other texts. -/
theorem Takes.whole {scan : List Char → ρ} {result : List Char → ρ} (h : scan text = result []) :
    Takes scan text [] result := by
  intro rest' hhead
  obtain rfl : rest' = [] := List.head?_eq_none_iff.1 hhead
  rw [List.append_nil, h]

/-- Behind the same front the next character is the same. -/
theorem head?_append_congr {rest' : List Char} (h : rest'.head? = rest.head?) (front : List Char) :
    (front ++ rest').head? = (front ++ rest).head? := by
  rw [List.head?_append, List.head?_append, h]

theorem head?_append_of_ne_nil (h : used ≠ []) (rest rest' : List Char) :
    (used ++ rest').head? = (used ++ rest).head? := by
  rw [List.head?_append_of_ne_nil _ h, List.head?_append_of_ne_nil _ h]

/-! ### Words, strings and numerals -/

theorem scanWord_eq_ok_iff {word : List Char} :
    scanWord word text = .ok rest ↔ text = word ++ rest := by
  induction word generalizing text with
  | nil => simp [scanWord]
  | cons w word ih =>
      cases text with
      | nil => simp [scanWord]
      | cons c text =>
          rw [scanWord, List.cons_append, List.cons.injEq]
          split
          · next heq => rw [ih, and_iff_right heq.symm]
          · next hne => simp [Ne.symm hne]

theorem takes_scanKeyword {word : String} {value node : Node}
    (h : scanKeyword word value text = (node, rest)) :
    ∃ used, text = used ++ rest ∧ Takes (scanKeyword word value) used rest fun r => (node, r) := by
  cases hword : scanWord word.toList text with
  | ok left =>
      simp only [scanKeyword, hword, Prod.mk.injEq] at h
      obtain ⟨rfl, rfl⟩ := h
      refine ⟨word.toList, scanWord_eq_ok_iff.1 hword, fun rest' _ => ?_⟩
      have hagain : scanWord word.toList (word.toList ++ rest') = .ok rest' :=
        scanWord_eq_ok_iff.2 rfl
      simp only [scanKeyword, hagain]
  | error fault =>
      have hscan := h
      simp only [scanKeyword, hword, Prod.mk.injEq] at h
      obtain ⟨rfl, rfl⟩ := h
      exact ⟨text, (List.append_nil text).symm, .whole hscan⟩

theorem takes_scanQuoted {quoted : Quoted} (h : scanQuoted [] text = (quoted, rest)) :
    ∃ used, text = used ++ rest ∧ Takes (scanQuoted []) used rest fun r => (quoted, r) := by
  by_cases hfault : quoted.fault = none
  · obtain ⟨body, hspells, rfl⟩ := spells_of_scanQuoted h hfault
    refine ⟨body ++ ['"'], by simp, fun rest' _ => ?_⟩
    rw [List.append_assoc, List.singleton_append, hspells.scanQuoted, ← hfault]
    rfl
  · obtain rfl := rest_of_scanQuoted h hfault
    exact ⟨text, (List.append_nil text).symm, .whole h⟩

/-- Behind a run of characters of a kind a run ends wherever the same character follows. -/
theorem takeWhile_eq_nil_of_head? {α : Type} {p : α → Bool} {l rest : List α}
    (h : rest.head? = (l.dropWhile p).head?) : rest.takeWhile p = [] := by
  have hself : (l.dropWhile p).takeWhile p = [] := by
    have hparts := List.takeWhile_append_dropWhile (p := p) (l := l.dropWhile p)
    rw [List.dropWhile_idempotent] at hparts
    simpa using hparts
  rw [← List.head?_eq_none_iff, List.head?_takeWhile, h, ← List.head?_takeWhile, hself]
  rfl

theorem takes_scanDigits {digits : List Char} (h : scanDigits text = .ok (digits, rest)) :
    text = digits ++ rest ∧ digits ≠ [] ∧ Takes scanDigits digits rest fun r => .ok (digits, r) := by
  have hparts : digits ≠ [] ∧ text.takeWhile Char.isDigit = digits ∧
      text.dropWhile Char.isDigit = rest := by
    cases text with
    | nil => cases h
    | cons c more =>
        unfold scanDigits at h
        split at h
        · cases h
        · cases h
        · next hcons =>
            simp only [Except.ok.injEq, Prod.mk.injEq] at h
            obtain ⟨rfl, rfl⟩ := h
            exact ⟨fun hempty => hcons c more hempty rfl, rfl, rfl⟩
  obtain ⟨hne, rfl, rfl⟩ := hparts
  refine ⟨List.takeWhile_append_dropWhile.symm, hne, fun rest' hhead => ?_⟩
  exact scanDigits_append hne (fun c hc => List.mem_takeWhile_imp hc)
    (takeWhile_eq_nil_of_head? hhead)

theorem takes_scanWhole {digits : List Char} (h : scanWhole text = .ok (digits, rest)) :
    text = digits ++ rest ∧ digits ≠ [] ∧ Takes scanWhole digits rest fun r => .ok (digits, r) := by
  unfold scanWhole at h
  split at h
  · cases h
  · next hzero =>
      obtain ⟨htext, hne, htakes⟩ := takes_scanDigits h
      refine ⟨htext, hne, fun rest' hhead => ?_⟩
      unfold scanWhole
      rw [htakes rest' hhead]
      split
      · next heq =>
          simp only [Except.ok.injEq, Prod.mk.injEq] at heq
          obtain ⟨rfl, -⟩ := heq
          exact absurd h (hzero _ _ _)
      · rfl

/-- A text that goes on with the character of another one does not start as that one does not. -/
theorem not_cons_of_head? {c : Char} {rest' : List Char} (hhead : rest'.head? = rest.head?)
    (h : ∀ more, rest = c :: more → False) : ∀ more, rest' = c :: more → False := by
  rintro more rfl
  obtain ⟨more', rfl⟩ := List.head?_eq_some_iff.1 hhead.symm
  exact h more' rfl

theorem takes_scanFraction {fraction : Option (List Char)}
    (h : scanFraction text = .ok (fraction, rest)) :
    ∃ used, text = used ++ rest ∧ Takes scanFraction used rest fun r => .ok (fraction, r) := by
  unfold scanFraction at h
  split at h
  · next text =>
      obtain ⟨⟨digits, left⟩, hdigits, heq⟩ := map_eq_ok h
      simp only [Prod.mk.injEq] at heq
      obtain ⟨rfl, rfl⟩ := heq
      obtain ⟨rfl, -, htakes⟩ := takes_scanDigits hdigits
      refine ⟨'.' :: digits, rfl, fun rest' hhead => ?_⟩
      rw [List.cons_append, scanFraction, htakes rest' hhead]
      rfl
  · next hpoint =>
      simp only [Except.ok.injEq, Prod.mk.injEq] at h
      obtain ⟨rfl, rfl⟩ := h
      exact ⟨[], rfl, fun rest' hhead => scanFraction.eq_2 rest' (not_cons_of_head? hhead hpoint)⟩

theorem takes_scanSigned {exponent : Option (Bool × List Char)}
    (h : scanSigned text = .ok (exponent, rest)) :
    ∃ used, text = used ++ rest ∧ Takes scanSigned used rest fun r => .ok (exponent, r) := by
  unfold scanSigned at h
  split at h
  all_goals
    obtain ⟨⟨digits, left⟩, hdigits, heq⟩ := map_eq_ok h
    simp only [Prod.mk.injEq] at heq
    obtain ⟨rfl, rfl⟩ := heq
    obtain ⟨rfl, hne, htakes⟩ := takes_scanDigits hdigits
  · refine ⟨'+' :: digits, rfl, fun rest' hhead => ?_⟩
    rw [List.cons_append, scanSigned, htakes rest' hhead]
    rfl
  · refine ⟨'-' :: digits, rfl, fun rest' hhead => ?_⟩
    rw [List.cons_append, scanSigned, htakes rest' hhead]
    rfl
  · next hplus hminus =>
      refine ⟨digits, rfl, fun rest' hhead => ?_⟩
      have hfirst := head?_append_of_ne_nil hne left rest'
      rw [scanSigned.eq_3 _ (not_cons_of_head? hfirst hplus) (not_cons_of_head? hfirst hminus),
        htakes rest' hhead]
      rfl

theorem takes_scanExponent {exponent : Option (Bool × List Char)}
    (h : scanExponent text = .ok (exponent, rest)) :
    ∃ used, text = used ++ rest ∧ Takes scanExponent used rest fun r => .ok (exponent, r) := by
  unfold scanExponent at h
  split at h
  · next text =>
      obtain ⟨used, rfl, htakes⟩ := takes_scanSigned h
      exact ⟨'e' :: used, rfl, fun rest' hhead => htakes rest' hhead⟩
  · next text =>
      obtain ⟨used, rfl, htakes⟩ := takes_scanSigned h
      exact ⟨'E' :: used, rfl, fun rest' hhead => htakes rest' hhead⟩
  · next hsmall hlarge =>
      simp only [Except.ok.injEq, Prod.mk.injEq] at h
      obtain ⟨rfl, rfl⟩ := h
      exact ⟨[], rfl, fun rest' hhead => scanExponent.eq_3 rest' (not_cons_of_head? hhead hsmall)
        (not_cons_of_head? hhead hlarge)⟩

theorem takes_scanUnsigned {negative : Bool} {numeral : Numeral}
    (h : scanUnsigned negative text = .ok (numeral, rest)) :
    ∃ used, used ≠ [] ∧ text = used ++ rest ∧
      Takes (scanUnsigned negative) used rest fun r => .ok (numeral, r) := by
  unfold scanUnsigned at h
  obtain ⟨⟨whole, r⟩, hwhole, h⟩ := bind_eq_ok h
  obtain ⟨⟨fraction, r'⟩, hfraction, h⟩ := bind_eq_ok h
  obtain ⟨⟨exponent, r''⟩, hexponent, h⟩ := bind_eq_ok h
  simp only [pure, Except.pure, Except.ok.injEq, Prod.mk.injEq] at h
  obtain ⟨rfl, rfl⟩ := h
  obtain ⟨rfl, hne, htakes⟩ := takes_scanWhole hwhole
  obtain ⟨used, rfl, htakes'⟩ := takes_scanFraction hfraction
  obtain ⟨used', rfl, htakes''⟩ := takes_scanExponent hexponent
  refine ⟨whole ++ (used ++ used'), by simp [hne], by simp, fun rest' hhead => ?_⟩
  have hhead' := head?_append_congr hhead used'
  rw [List.append_assoc, List.append_assoc, scanUnsigned,
    htakes _ (head?_append_congr hhead' used)]
  simp only [bind, Except.bind, htakes' _ hhead', htakes'' _ hhead]
  rfl

theorem takes_scanNumeral {numeral : Numeral} (h : scanNumeral text = .ok (numeral, rest)) :
    ∃ used, used ≠ [] ∧ text = used ++ rest ∧
      Takes scanNumeral used rest fun r => .ok (numeral, r) := by
  unfold scanNumeral at h
  split at h
  · next text =>
      obtain ⟨used, -, rfl, htakes⟩ := takes_scanUnsigned h
      exact ⟨'-' :: used, List.cons_ne_nil _ _, rfl, fun rest' hhead => htakes rest' hhead⟩
  · next hminus =>
      obtain ⟨used, hne, rfl, htakes⟩ := takes_scanUnsigned h
      refine ⟨used, hne, rfl, fun rest' hhead => ?_⟩
      have hfirst := head?_append_of_ne_nil hne rest rest'
      rw [scanNumeral.eq_2 _ (not_cons_of_head? hfirst hminus), htakes rest' hhead]

/-- A number takes something off, be it a numeral or the whole text. -/
theorem takes_scanNumber {node : Node} (hne : text ≠ []) (h : scanNumber text = (node, rest)) :
    ∃ used, used ≠ [] ∧ text = used ++ rest ∧ Takes scanNumber used rest fun r => (node, r) := by
  have hscan := h
  unfold scanNumber at h
  split at h
  · next numeral left hnumeral =>
      simp only [Prod.mk.injEq] at h
      obtain ⟨rfl, rfl⟩ := h
      obtain ⟨used, hused, rfl, htakes⟩ := takes_scanNumeral hnumeral
      refine ⟨used, hused, rfl, fun rest' hhead => ?_⟩
      rw [scanNumber, htakes rest' hhead]
  all_goals
    simp only [Prod.mk.injEq] at h
    obtain ⟨rfl, rfl⟩ := h
    exact ⟨text, hne, (List.append_nil text).symm, .whole hscan⟩

end Shaderworks.Json
