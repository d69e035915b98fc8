/-
**Taking a piece off the front.**

A piece of characters of one class is taken off the front of a text as far as the class goes.  It ends
where a character stands that does not belong to the class, so a text can be taken apart at such a
character in one way only.

Main results:

* `takeWhile_piece`, `dropWhile_piece` — what is taken off, and what is left;
* `dropWhile_eq_cons_iff` — what is left begins behind a piece of the class;
* `piece_unique` — the piece, the character and what follows it are those of the text.
-/

set_option autoImplicit false

namespace Shaderworks.Text

variable {α : Type} {p : α → Bool} {piece piece' text rest rest' : List α} {c c' : α}

/-- A piece of the class is taken off whole. -/
theorem takeWhile_piece (hpiece : ∀ x ∈ piece, p x = true) (hc : p c = false) :
    (piece ++ c :: rest).takeWhile p = piece := by
  rw [List.takeWhile_append_of_pos hpiece, List.takeWhile_cons_of_neg (by simp [hc]),
    List.append_nil]

/-- What follows it is left. -/
theorem dropWhile_piece (hpiece : ∀ x ∈ piece, p x = true) (hc : p c = false) :
    (piece ++ c :: rest).dropWhile p = c :: rest := by
  rw [List.dropWhile_append_of_pos hpiece, List.dropWhile_cons_of_neg (by simp [hc])]

/-- **What is left of a text begins behind a piece of the class.** -/
theorem dropWhile_eq_cons_iff :
    text.dropWhile p = c :: rest ↔
      p c = false ∧ ∃ piece, (∀ x ∈ piece, p x = true) ∧ text = piece ++ c :: rest := by
  constructor
  · intro h
    have hstop := List.head?_dropWhile_not p text
    rw [h] at hstop
    refine ⟨hstop, text.takeWhile p, List.all_eq_true.1 List.all_takeWhile, ?_⟩
    rw [← h, List.takeWhile_append_dropWhile]
  · rintro ⟨hc, piece, hpiece, rfl⟩
    exact dropWhile_piece hpiece hc

/-- **A piece ends where a character stands that does not belong to it.** -/
theorem piece_unique (hpiece : ∀ x ∈ piece, p x = true) (hc : p c = false)
    (hpiece' : ∀ x ∈ piece', p x = true) (hc' : p c' = false)
    (h : piece ++ c :: rest = piece' ++ c' :: rest') : piece = piece' ∧ c = c' ∧ rest = rest' := by
  have htake := congrArg (List.takeWhile p) h
  have hdrop := congrArg (List.dropWhile p) h
  rw [takeWhile_piece hpiece hc, takeWhile_piece hpiece' hc'] at htake
  rw [dropWhile_piece hpiece hc, dropWhile_piece hpiece' hc'] at hdrop
  exact ⟨htake, List.cons.inj hdrop⟩

end Shaderworks.Text
