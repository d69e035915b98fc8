/-
**Finding a piece of text.**

Main definitions:

* `occursIn` — whether a text contains a piece;
* `after?` — what follows a piece at the start of a text.

Main results:

* `occursIn_iff` — a text contains a piece exactly when the piece is an infix of it;
* `after?_eq_some_iff` — the rest and the piece make up the text.
-/

set_option autoImplicit false

namespace Shaderworks.Text

/-- Whether a text contains a piece. -/
def occursIn (piece : List Char) : List Char → Bool
  | [] => piece.isEmpty
  | c :: rest => piece.isPrefixOf (c :: rest) || occursIn piece rest

/-- A text contains a piece exactly when the piece is an infix of it. -/
theorem occursIn_iff {piece text : List Char} : occursIn piece text = true ↔ piece <:+: text := by
  induction text with
  | nil => simp [occursIn]
  | cons c rest ih => simp [occursIn, ih, List.infix_cons_iff]

/-- What follows a piece at the start of a text, if the text starts with it. -/
def after? : List Char → List Char → Option (List Char)
  | [], text => some text
  | _ :: _, [] => none
  | p :: piece, c :: text => if p = c then after? piece text else none

/-- The piece and what follows it make up the text. -/
theorem after?_eq_some_iff {piece text rest : List Char} :
    after? piece text = some rest ↔ text = piece ++ rest := by
  induction piece generalizing text with
  | nil => simp [after?]
  | cons p piece ih =>
      cases text with
      | nil => simp [after?]
      | cons c text =>
          by_cases h : p = c
          · simp [after?, h, ih]
          · simp [after?, h, Ne.symm h]

end Shaderworks.Text
