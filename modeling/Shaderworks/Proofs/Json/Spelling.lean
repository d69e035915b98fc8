/-
**How strings are spelled.**

Between the quotes of a string stand plain characters, escapes of one letter, and code units of
sixteen bits by their four digits.  That is all that the scanner asks for.  Whether the pieces stand
for a text is another question: code units between `D800` and `DFFF` are halves of characters, and
they do so in pairs only.

Main definitions:

* `Spells` — a text between two quotes spells pieces;
* `Means` — pieces stand for characters.

Main results:

* `Spells.scanQuoted`, `spells_of_scanQuoted` — **the scanner takes exactly what is spelled;**
* `Quoted.read_of_means`, `Quoted.read_of_not_means` — a string is read as the characters that it
  stands for, and is malformed if it stands for none.
-/

import Shaderworks.Json.Reading
import Shaderworks.Proofs.Results

set_option autoImplicit false

namespace Shaderworks.Json

/-! ### Pieces in a text -/

/-- A text that may stand between two quotes spells pieces. -/
inductive Spells : List Char → List Piece → Prop
  /-- Nothing spells no piece. -/
  | nil : Spells [] []
  /-- A character stands for itself, unless it is a control character, a quote or a backslash. -/
  | plain {c : Char} {body : List Char} {pieces : List Piece} (hcontrol : ¬ c < ' ')
      (hquote : c ≠ '"') (hslash : c ≠ '\\') (hrest : Spells body pieces) :
      Spells (c :: body) (.char c :: pieces)
  /-- A character is escaped by its letter. -/
  | letter {l c : Char} {body : List Char} {pieces : List Piece} (hescape : escaped? l = some c)
      (hrest : Spells body pieces) : Spells ('\\' :: l :: body) (.char c :: pieces)
  /-- A code unit is escaped by its digits. -/
  | codeUnit {a b c d : Char} {u : Nat} {body : List Char} {pieces : List Piece}
      (hunit : codeUnit? a b c d = some u) (hrest : Spells body pieces) :
      Spells ('\\' :: 'u' :: a :: b :: c :: d :: body) (.codeUnit u :: pieces)

/-- What is spelled is scanned up to the closing quote. -/
theorem Spells.scanQuoted {body : List Char} {pieces : List Piece} (h : Spells body pieces)
    (before : List Piece) (rest : List Char) :
    Json.scanQuoted before (body ++ '"' :: rest) = (⟨before.reverse ++ pieces, none⟩, rest) := by
  induction h generalizing before with
  | nil =>
      rw [List.append_nil]
      rfl
  | @plain c body pieces hcontrol hquote hslash _ ih =>
      rw [List.cons_append, Json.scanQuoted, if_neg hcontrol, ih, List.reverse_cons,
        List.append_assoc]
      · rfl
      · exact hquote
      · exact fun heq _ => hslash heq
      · exact fun _ _ _ _ _ heq _ => hslash heq
      · exact fun _ heq _ => hslash heq
      · exact fun _ _ heq _ => hslash heq
  | @letter l c body pieces hescape _ ih =>
      have hunit : l ≠ 'u' := by
        rintro rfl
        simp [escaped?] at hescape
      rw [List.cons_append, List.cons_append, Json.scanQuoted, hescape]
      · simp only [ih, List.reverse_cons, List.append_assoc, List.singleton_append]
      · exact fun _ _ _ _ _ heq => absurd heq hunit
      · exact hunit
  | codeUnit hunit _ ih =>
      simp only [List.cons_append, Json.scanQuoted, hunit, ih, List.reverse_cons, List.append_assoc,
        List.nil_append]

/-- Pieces behind others are spelled up to the closing quote, or there is a fault and nothing is
left. -/
def Quotes (before : List Piece) (text : List Char) (scanned : Quoted × List Char) : Prop :=
  (∃ body pieces, Spells body pieces ∧ text = body ++ '"' :: scanned.2 ∧
    scanned.1 = ⟨before.reverse ++ pieces, none⟩) ∨ scanned.1.fault ≠ none ∧ scanned.2 = []

/-- One more piece in front. -/
theorem Quotes.cons {before : List Piece} {text : List Char} {scanned : Quoted × List Char}
    {piece : Piece} (h : Quotes (piece :: before) text scanned) (front : List Char)
    (hfront : ∀ body pieces, Spells body pieces → Spells (front ++ body) (piece :: pieces)) :
    Quotes before (front ++ text) scanned := by
  refine h.imp_left ?_
  rintro ⟨body, pieces, hspells, rfl, hscanned⟩
  refine ⟨front ++ body, piece :: pieces, hfront body pieces hspells, ?_, ?_⟩
  · rw [List.append_assoc]
  · rw [hscanned, List.reverse_cons, List.append_assoc, List.singleton_append]

/-- What is scanned was spelled. -/
theorem quotes_scanQuoted (before : List Piece) (text : List Char) :
    Quotes before text (scanQuoted before text) := by
  fun_induction scanQuoted before text with
  | case2 before rest => exact .inl ⟨[], [], .nil, rfl, by rw [List.append_nil]⟩
  | case4 before a b c d rest u hunit ih =>
      exact ih.cons ['\\', 'u', a, b, c, d] fun _ _ hspells => .codeUnit hunit hspells
  | case7 before l rest _ _ c hescape ih =>
      exact ih.cons ['\\', l] fun _ _ hspells => .letter hescape hspells
  | case10 before c rest hquote hslash _ _ hletter hcontrol ih =>
      refine ih.cons [c] fun _ _ hspells => .plain hcontrol hquote ?_ hspells
      rintro rfl
      cases rest with
      | nil => exact hslash rfl rfl
      | cons l rest => exact hletter l rest rfl rfl
  | _ => exact .inr ⟨Option.some_ne_none _, rfl⟩

/-- **A string without a fault is what is spelled up to its closing quote.** -/
theorem spells_of_scanQuoted {text rest : List Char} {quoted : Quoted}
    (h : scanQuoted [] text = (quoted, rest)) (hfault : quoted.fault = none) :
    ∃ body, Spells body quoted.pieces ∧ text = body ++ '"' :: rest := by
  have hquotes := quotes_scanQuoted [] text
  rw [h] at hquotes
  obtain ⟨body, pieces, hspells, htext, rfl⟩ | ⟨hbroken, -⟩ := hquotes
  · exact ⟨body, hspells, htext⟩
  · exact absurd hfault hbroken

/-- After the fault of a string nothing is left. -/
theorem rest_of_scanQuoted {text rest : List Char} {quoted : Quoted}
    (h : scanQuoted [] text = (quoted, rest)) (hfault : quoted.fault ≠ none) : rest = [] := by
  have hquotes := quotes_scanQuoted [] text
  rw [h] at hquotes
  obtain ⟨_, _, _, _, rfl⟩ | ⟨-, hrest⟩ := hquotes
  · exact absurd rfl hfault
  · exact hrest

/-! ### What pieces stand for -/

/-- The first half of a character. -/
abbrev IsLeading (u : Nat) : Prop := 0xD800 ≤ u ∧ u ≤ 0xDBFF

/-- The second half of a character. -/
abbrev IsTrailing (u : Nat) : Prop := 0xDC00 ≤ u ∧ u ≤ 0xDFFF

/-- Pieces stand for characters if every half of a character stands beside its other half. -/
inductive Means : List Piece → List Char → Prop
  /-- No piece stands for no character. -/
  | nil : Means [] []
  /-- A character stands for itself. -/
  | char {c : Char} {pieces : List Piece} {chars : List Char} (hrest : Means pieces chars) :
      Means (.char c :: pieces) (c :: chars)
  /-- A code unit that is no half is the number of a character. -/
  | codeUnit {u : Nat} {pieces : List Piece} {chars : List Char} (hleading : ¬ IsLeading u)
      (htrailing : ¬ IsTrailing u) (hrest : Means pieces chars) :
      Means (.codeUnit u :: pieces) (Char.ofNat u :: chars)
  /-- Two halves make up the number of a character, ten bits each. -/
  | pair {u v : Nat} {pieces : List Piece} {chars : List Char} (hleading : IsLeading u)
      (htrailing : IsTrailing v) (hrest : Means pieces chars) :
      Means (.codeUnit u :: .codeUnit v :: pieces)
        (Char.ofNat (0x10000 + (u - 0xD800) * 1024 + (v - 0xDC00)) :: chars)

/-- Pieces that stand for characters are read as these. -/
theorem Means.spell {pieces : List Piece} {chars : List Char} (h : Means pieces chars) :
    Json.spell pieces none = .ok chars := by
  induction h with
  | nil => rfl
  | char _ ih =>
      rw [Json.spell, ih]
      rfl
  | codeUnit hleading htrailing _ ih =>
      rw [Json.spell.eq_def]
      dsimp only
      rw [if_neg htrailing, if_neg hleading, ih]
      rfl
  | @pair u v pieces chars hleading htrailing _ ih =>
      have hfirst : ¬ IsTrailing u := by omega
      rw [Json.spell.eq_def]
      dsimp only
      rw [if_neg hfirst, if_pos hleading, if_pos htrailing, ih]
      rfl

/-- Pieces stand for what they are read as, and are malformed if they are not read. -/
def Judges (pieces : List Piece) : Except Fault (List Char) → Prop
  | .ok chars => Means pieces chars
  | .error fault => fault = .malformed

/-- One more character in front. -/
theorem Judges.map {pieces rest : List Piece} {result : Except Fault (List Char)}
    (h : Judges rest result) {c : Char}
    (hfront : ∀ chars, Means rest chars → Means pieces (c :: chars)) :
    Judges pieces (result.map (c :: ·)) := by
  cases result with
  | error fault => exact h
  | ok chars => exact hfront chars h

theorem judges_spell (pieces : List Piece) : Judges pieces (spell pieces none) := by
  generalize hclosed : (none : Option Fault) = fault
  fun_induction spell pieces fault with
  | case1 => exact .nil
  | case2 fault => cases hclosed
  | case3 c rest fault ih => exact (ih hclosed).map fun _ hmeans => .char hmeans
  | case5 => rw [← hclosed]; rfl
  | case7 u fault _ hleading v rest htrailing ih =>
      exact (ih hclosed).map fun _ hmeans => .pair hleading htrailing hmeans
  | case9 u rest fault htrailing hleading ih =>
      exact (ih hclosed).map fun _ hmeans => .codeUnit hleading htrailing hmeans
  | _ => rfl

/-- **A string is read as the characters that it stands for.** -/
theorem Quoted.read_of_means {pieces : List Piece} {word : String}
    (h : Means pieces word.toList) : (⟨pieces, none⟩ : Quoted).read = .ok word := by
  simp only [Quoted.read, h.spell, String.ofList_toList]

/-- **A string that stands for no characters is malformed.** -/
theorem Quoted.read_of_not_means {pieces : List Piece} (h : ∀ chars, ¬ Means pieces chars) :
    (⟨pieces, none⟩ : Quoted).read = refused := by
  have hjudges := judges_spell pieces
  cases hspell : spell pieces none with
  | ok chars =>
      rw [hspell] at hjudges
      exact absurd hjudges (h chars)
  | error fault =>
      rw [hspell] at hjudges
      obtain rfl : fault = .malformed := hjudges
      simp only [Quoted.read, hspell]
      rfl

/-- Pieces before a fault are not read. -/
theorem fault_of_spell {pieces : List Piece} {fault : Option Fault} :
    ∀ {chars : List Char}, spell pieces fault = .ok chars → fault = none := by
  fun_induction spell pieces fault with
  | case1 => exact fun _ => rfl
  | case3 _ _ _ ih | case7 _ _ _ _ _ _ _ ih | case9 _ _ _ _ _ ih =>
      intro chars h
      obtain ⟨rest, hrest, -⟩ := map_eq_ok h
      exact ih hrest
  | _ => exact fun h => nomatch h

/-- A string that is read has its closing quote. -/
theorem Quoted.fault_of_read {quoted : Quoted} {word : String} (h : quoted.read = .ok word) :
    quoted.fault = none := by
  rw [Quoted.read] at h
  split at h
  · next hspell => exact fault_of_spell hspell
  · cases h

end Shaderworks.Json
