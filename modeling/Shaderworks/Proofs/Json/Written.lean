/-
**What was written is outlined.**

A written value has no spaces and no faults, so the scanner finds in it what was put there, and it
finds where the value ends: numerals by what stands behind them, everything else by itself.  Strings
come back piece by piece, whatever characters they have.

Main definitions:

* `Closes` — what may stand behind a value;
* `Outlines` — a text has an outline, whatever stands behind it;
* `pieceOf` — a character of a string as it is written;
* `numeralOf` — a whole number as it is written.

Main results:

* `outlines_printText`, `outlines_integer` — strings and whole numbers;
* `outlines_printArray`, `outlines_printObject` — arrays and objects of what is outlined;
* `Outlines.readDocument` — a reader of texts gets the outline.
-/

import Shaderworks.Json.Printing
import Shaderworks.Json.Reading
import Mathlib.Data.List.Forall2

set_option autoImplicit false

namespace Shaderworks.Json

variable {text rest : List Char} {node : Node}

/-! ### Outlines of written texts -/

/-- What may stand behind a value: nothing, or a character between the parts of a text. -/
def Closes : List Char → Prop
  | [] => True
  | c :: _ => c = ',' ∨ c = ':' ∨ c = ']' ∨ c = '\x7d'

/-- A text has an outline, whatever stands behind it. -/
structure Outlines (text : List Char) (node : Node) : Prop where
  /-- It starts with a character that is no space and closes no array. -/
  starts : ∃ c more, text = c :: more ∧ isSpace c = false ∧ c ≠ ']'
  /-- The scanner finds the outline, and where the text ends. -/
  scans : ∀ fuel rest, 2 * text.length ≤ fuel + 1 → Closes rest →
    scanNode (fuel + 1) (text ++ rest) = (node, rest)

theorem dropSpace_cons {c : Char} (h : isSpace c = false) (rest : List Char) :
    dropSpace (c :: rest) = c :: rest :=
  List.dropWhile_cons_of_neg (by simp [h])

namespace Outlines

theorem length_pos (h : Outlines text node) : 0 < text.length := by
  obtain ⟨c, more, rfl, -⟩ := h.starts
  exact Nat.succ_pos _

theorem scan (h : Outlines text node) {fuel : Nat} (hfuel : 2 * text.length ≤ fuel)
    (hrest : Closes rest) : scanNode fuel (text ++ rest) = (node, rest) := by
  have hpos := h.length_pos
  have hne : fuel ≠ 0 := by omega
  obtain ⟨fuel, rfl⟩ := Nat.exists_eq_succ_of_ne_zero hne
  exact h.scans fuel rest hfuel hrest

theorem outline (h : Outlines text node) : Json.outline text = (node, []) := by
  have hscan : scanNode (2 * text.length + 2) (text ++ []) = (node, []) :=
    h.scan (Nat.le_add_right _ 2) trivial
  rwa [List.append_nil] at hscan

/-- A reader of texts gets the outline. -/
theorem readDocument {α : Type} (h : Outlines text node) {read : Reader α} {value : α}
    (hread : read node = .ok value) :
    Json.readDocument read (String.ofList text) = .ok value := by
  rw [Json.readDocument, String.toList_ofList, h.outline]
  simp only [hread]
  rfl

end Outlines

/-! ### Words and whole numbers -/

theorem outlines_null : Outlines "null".toList .null where
  starts := ⟨'n', ['u', 'l', 'l'], rfl, rfl, by decide⟩
  scans _ _ _ _ := rfl

theorem outlines_printBool (value : Bool) : Outlines (printBool value) (.boolean value) := by
  cases value with
  | false => exact ⟨⟨'f', ['a', 'l', 's', 'e'], rfl, rfl, by decide⟩, fun _ _ _ _ => rfl⟩
  | true => exact ⟨⟨'t', ['r', 'u', 'e'], rfl, rfl, by decide⟩, fun _ _ _ _ => rfl⟩

/-- Behind a numeral there is no digit. -/
theorem Closes.not_digit (h : Closes rest) : rest.takeWhile Char.isDigit = [] := by
  cases rest with
  | nil => rfl
  | cons c more => rcases h with rfl | rfl | rfl | rfl <;> rfl

/-- Digits are scanned up to where they end. -/
theorem scanDigits_append {digits : List Char} (hne : digits ≠ [])
    (hdigits : ∀ c ∈ digits, c.isDigit = true) (hrest : rest.takeWhile Char.isDigit = []) :
    scanDigits (digits ++ rest) = .ok (digits, rest) := by
  have htake : (digits ++ rest).takeWhile Char.isDigit = digits := by
    rw [List.takeWhile_append_of_pos hdigits, hrest, List.append_nil]
  have hdrop : (digits ++ rest).dropWhile Char.isDigit = rest := by
    have hparts : (digits ++ rest).takeWhile Char.isDigit ++
        (digits ++ rest).dropWhile Char.isDigit = digits ++ rest :=
      List.takeWhile_append_dropWhile
    rw [htake] at hparts
    exact List.append_cancel_left hparts
  unfold scanDigits
  rw [htake, hdrop]
  cases digits with
  | nil => exact absurd rfl hne
  | cons d digits => rfl

/-- A whole number is scanned as its digits, without point and exponent. -/
theorem scanUnsigned_append {digits : List Char} (hne : digits ≠ [])
    (hdigits : ∀ c ∈ digits, c.isDigit = true) (hzero : ∀ d more, digits ≠ '0' :: d :: more)
    (hrest : Closes rest) (negative : Bool) :
    scanUnsigned negative (digits ++ rest) = .ok (⟨negative, digits, none, none⟩, rest) := by
  have hwhole : scanWhole (digits ++ rest) = .ok (digits, rest) := by
    unfold scanWhole
    rw [scanDigits_append hne hdigits hrest.not_digit]
    split
    · next d more _ heq =>
        rw [Except.ok.injEq, Prod.mk.injEq] at heq
        exact absurd heq.1 (hzero d more)
    · rfl
  have hfraction : scanFraction rest = .ok (none, rest) := by
    cases rest with
    | nil => rfl
    | cons c more => rcases hrest with rfl | rfl | rfl | rfl <;> rfl
  have hexponent : scanExponent rest = .ok (none, rest) := by
    cases rest with
    | nil => rfl
    | cons c more => rcases hrest with rfl | rfl | rfl | rfl <;> rfl
  rw [scanUnsigned, hwhole]
  simp only [bind, Except.bind, hfraction, hexponent]
  rfl

/-- Only zero is written with a leading zero. -/
theorem eq_zero_of_toDigits (n : Nat) (more : List Char) (h : Nat.toDigits 10 n = '0' :: more) :
    n = 0 := by
  induction n using Nat.strongRecOn generalizing more with
  | ind n ih =>
      rw [Nat.toDigits_eq_if (by decide)] at h
      split at h
      · next hsmall =>
          have hchar : ∀ n < 10, Nat.digitChar n = '0' → n = 0 := by decide
          exact hchar n hsmall (List.cons.inj h).1
      · next hlarge =>
          cases hfront : Nat.toDigits 10 (n / 10) with
          | nil => exact absurd hfront Nat.toDigits_ne_nil
          | cons d digits =>
              rw [hfront, List.cons_append] at h
              rw [(List.cons.inj h).1] at hfront
              have hzero := ih (n / 10) (by omega) digits hfront
              omega

/-- Digits are written without a leading zero. -/
theorem toDigits_ne_zero_cons (n : Nat) (d : Char) (more : List Char) :
    Nat.toDigits 10 n ≠ '0' :: d :: more := by
  intro h
  obtain rfl := eq_zero_of_toDigits n _ h
  exact absurd h (by simp)

/-- A whole number as it is written. -/
def numeralOf (value : Int) : Numeral :=
  ⟨decide (value < 0), Nat.toDigits 10 value.natAbs, none, none⟩

/-- The whole numbers of sixty-four bits, with or without sign. -/
def Fits (value : Int) : Prop := -(Decimal.twoTo 63 : Int) ≤ value ∧ value ≤ maxCollected

theorem toList_integer (value : Int) :
    (Number.integer value).text.toList =
      if value < 0 then '-' :: Nat.toDigits 10 value.natAbs else Nat.toDigits 10 value.natAbs := by
  rw [Number.text, Int.toString_eq_repr, Int.repr_eq_if]
  by_cases hneg : value < 0
  · rw [if_neg (by omega), if_pos hneg, String.toList_append, Nat.toList_repr,
      show (-value).toNat = value.natAbs by omega]
    rfl
  · rw [if_pos (by omega), if_neg hneg, Nat.toList_repr, show value.toNat = value.natAbs by omega]

/-- A whole number of sixty-four bits is read back from its numeral. -/
theorem read_numeralOf {value : Int} (h : Fits value) :
    (numeralOf value).read = .ok (.integer value) := by
  have hdigits : (Nat.toDigits 10 value.natAbs).foldl (fun sum d => 10 * sum + digitValue d) 0 =
      value.natAbs := Nat.ofDigitChars_toDigits (by decide) (by decide)
  have hlarge : Decimal.twoTo 63 ≤ maxCollected := by decide
  have hle : value.natAbs ≤ maxCollected := by
    obtain ⟨hlow, hhigh⟩ := h
    omega
  have hwhole : wholePart 0 (Nat.toDigits 10 value.natAbs) = (value.natAbs, 0) := by
    rw [wholePart_of_le (by rwa [hdigits]), hdigits]
  have hvalue : (numeralOf value).value? = some (.integer value) := by
    simp only [Numeral.value?, numeralOf, hwhole, if_true, wholeOf?]
    by_cases hneg : value < 0
    · have hrange : ¬ (value.natAbs = 0 ∨ Decimal.twoTo 63 < value.natAbs) := by
        have := h.1
        omega
      simp only [hneg, decide_true, if_true, if_neg hrange]
      rw [show -(value.natAbs : Int) = value by omega]
    · simp only [hneg, decide_false, Bool.false_eq_true, if_false]
      rw [show (value.natAbs : Int) = value by omega]
  rw [Numeral.read, hvalue]

/-- A number starts with no space, and closes no array. -/
theorem starts_number {c : Char} (hc : c = '-' ∨ c.isDigit = true) :
    isSpace c = false ∧ c ≠ ']' := by
  constructor
  · refine Bool.eq_false_iff.2 fun h => ?_
    simp only [isSpace, Bool.or_eq_true, beq_iff_eq] at h
    rcases h with ((rfl | rfl) | rfl) | rfl <;> exact absurd hc (by decide)
  · rintro rfl
    exact absurd hc (by decide)

theorem scanNode_number {c : Char} (hc : c = '-' ∨ c.isDigit = true) (fuel : Nat)
    (rest : List Char) : scanNode (fuel + 1) (c :: rest) = scanNumber (c :: rest) := by
  rw [scanNode, dropSpace_cons (starts_number hc).1]
  split
  case h_8 heq =>
    obtain ⟨rfl, rfl⟩ := List.cons.inj heq
    rw [if_pos (by simpa using hc)]
  all_goals
    next heq =>
      cases heq
      try exact absurd hc (by decide)

theorem outlines_integer (value : Int) :
    Outlines (Number.integer value).text.toList (.number (numeralOf value)) := by
  have hdigits : ∀ c ∈ Nat.toDigits 10 value.natAbs, c.isDigit = true :=
    fun c hc => Nat.isDigit_of_mem_toDigits (by decide) (by decide) hc
  have hscan (rest : List Char) (hrest : Closes rest) (negative : Bool) :=
    scanUnsigned_append Nat.toDigits_ne_nil hdigits (toDigits_ne_zero_cons _) hrest negative
  rw [toList_integer]
  by_cases hneg : value < 0
  · rw [if_pos hneg]
    refine ⟨⟨'-', _, rfl, rfl, by decide⟩, fun fuel rest _ hrest => ?_⟩
    rw [List.cons_append, scanNode_number (.inl rfl), scanNumber, scanNumeral, hscan rest hrest]
    simp [numeralOf, hneg]
  · rw [if_neg hneg]
    cases hfirst : Nat.toDigits 10 value.natAbs with
    | nil => exact absurd hfirst Nat.toDigits_ne_nil
    | cons c more =>
        have hc : c.isDigit = true := hdigits c (by rw [hfirst]; exact List.mem_cons_self)
        refine ⟨⟨c, more, rfl, starts_number (.inr hc)⟩, fun fuel rest _ hrest => ?_⟩
        have hminus : ∀ text, c :: (more ++ rest) = '-' :: text → False := by
          intro text heq
          rw [(List.cons.inj heq).1] at hc
          exact absurd hc (by decide)
        rw [List.cons_append, scanNode_number (.inr hc), scanNumber, scanNumeral.eq_2 _ hminus,
          ← List.cons_append, ← hfirst, hscan rest hrest]
        simp [numeralOf, hneg]

/-! ### Strings -/

/-- A character of a string as it is written: control characters without a letter of their own by a
code unit, everything else by a letter or as it is. -/
def pieceOf (c : Char) : Piece :=
  if c < ' ' ∧ c ∉ ['\x08', '\x0c', '\n', '\r', '\t'] then .codeUnit c.toNat else .char c

theorem codeUnit?_of_control {c : Char} (h : c < ' ') :
    codeUnit? '0' '0' (Bytes.hexDigit (c.toNat / 16)) (Bytes.hexDigit (c.toNat % 16)) =
      some c.toNat := by
  have hlt : c.toNat < 32 := h
  have hzero : Bytes.hexValue? '0' = some 0 := by decide
  have hhi := Bytes.hexValue?_hexDigit (c.toNat / 16) (by omega)
  have hlo := Bytes.hexValue?_hexDigit (c.toNat % 16) (by omega)
  simp only [codeUnit?, hzero, hhi, hlo, Option.some.injEq]
  omega

/-- A written character is scanned as its piece. -/
theorem scanQuoted_printChar (c : Char) (before : List Piece) (rest : List Char) :
    scanQuoted before (printChar c ++ rest) = scanQuoted (pieceOf c :: before) rest := by
  unfold printChar
  split
  case h_8 hquote hslash hback hform hline hreturn htab =>
    have hother : c ∉ ['\x08', '\x0c', '\n', '\r', '\t'] := by
      simpa using ⟨hback, hform, hline, hreturn, htab⟩
    split
    · next hcontrol =>
        rw [pieceOf, if_pos ⟨hcontrol, hother⟩]
        simp only [List.cons_append, List.nil_append, scanQuoted, codeUnit?_of_control hcontrol]
    · next hplain =>
        rw [pieceOf, if_neg fun h => hplain h.1, List.singleton_append, scanQuoted, if_neg hplain]
        · exact hquote
        · exact fun heq _ => hslash heq
        · exact fun _ _ _ _ _ heq _ => hslash heq
        · exact fun _ heq _ => hslash heq
        · exact fun _ _ heq _ => hslash heq
  all_goals rfl

theorem scanQuoted_written (chars : List Char) (before : List Piece) (rest : List Char) :
    scanQuoted before (chars.flatMap printChar ++ '"' :: rest) =
      (⟨before.reverse ++ chars.map pieceOf, none⟩, rest) := by
  induction chars generalizing before with
  | nil =>
      rw [List.map_nil, List.append_nil]
      rfl
  | cons c chars ih =>
      rw [List.flatMap_cons, List.append_assoc, scanQuoted_printChar, ih, List.reverse_cons,
        List.append_assoc]
      rfl

/-- A string as it is written. -/
def quotedOf (text : String) : Quoted := ⟨text.toList.map pieceOf, none⟩

/-- The pieces spell the characters that they were written for. -/
theorem spell_pieces (chars : List Char) : spell (chars.map pieceOf) none = .ok chars := by
  induction chars with
  | nil => rfl
  | cons c chars ih =>
      rw [List.map_cons, pieceOf]
      split
      · next hcontrol =>
          have hlt : c.toNat < 32 := hcontrol.1
          rw [spell.eq_def]
          dsimp only
          rw [if_neg (by omega), if_neg (by omega), ih, Char.ofNat_toNat]
          rfl
      · rw [spell, ih]
        rfl

/-- **A string is read back as what was written.** -/
theorem read_quotedOf (text : String) : (quotedOf text).read = .ok text := by
  rw [Quoted.read, quotedOf, spell_pieces]
  simp

theorem outlines_printText (text : String) : Outlines (printText text) (.text (quotedOf text)) where
  starts := ⟨'"', _, rfl, rfl, by decide⟩
  scans fuel rest _ _ := by
    have hscan := scanQuoted_written text.toList [] rest
    rw [printText, List.append_assoc, List.cons_append, List.singleton_append, scanNode,
      dropSpace_cons rfl]
    simp only [hscan]
    rfl

/-! ### Arrays and objects -/

theorem commaSeparated_cons (piece : List Char) (pieces : List (List Char)) :
    commaSeparated (piece :: pieces) = piece ++ pieces.flatMap (',' :: ·) := by
  induction pieces generalizing piece with
  | nil => simp [commaSeparated]
  | cons next pieces ih =>
      rw [commaSeparated, List.intercalate_cons_cons, List.flatMap_cons, List.append_assoc,
        List.singleton_append]
      exact congrArg (piece ++ ',' :: ·) (ih next)

/-- Behind an item another one or the bracket stands. -/
theorem closes_flatMap (pieces : List (List Char)) {c : Char} (hc : c = ']' ∨ c = '\x7d')
    (rest : List Char) : Closes (pieces.flatMap (',' :: ·) ++ c :: rest) := by
  cases pieces with
  | nil => exact .inr (.inr hc)
  | cons piece pieces => exact .inl rfl

theorem scanItems_closed (fuel : Nat) (first : Bool) (rest : List Char) :
    scanItems (fuel + 1) first (']' :: rest) = ([], .closed, rest) := rfl

/-- An item behind a comma, and those behind it. -/
theorem scanItems_comma {fuel : Nat} {text rest : List Char} {node : Node} {items : List Node}
    {scanned : Ending × List Char} (hnode : scanNode fuel text = (node, rest))
    (hitems : scanItems fuel false rest = (items, scanned)) :
    scanItems (fuel + 1) false (',' :: text) = (node :: items, scanned) := by
  rw [scanItems, dropSpace_cons rfl]
  simp [hnode, hitems]

/-- The first item, and those behind it. -/
theorem scanItems_first {fuel : Nat} {c : Char} {text rest : List Char} {node : Node}
    {items : List Node} {scanned : Ending × List Char} (hspace : isSpace c = false) (hc : c ≠ ']')
    (hnode : scanNode fuel (c :: text) = (node, rest))
    (hitems : scanItems fuel false rest = (items, scanned)) :
    scanItems (fuel + 1) true (c :: text) = (node :: items, scanned) := by
  rw [scanItems, dropSpace_cons hspace]
  simp [hnode, hitems]

variable {texts : List (List Char)} {nodes : List Node}

/-- The items behind the first, each behind a comma. -/
theorem scanItems_tail (h : List.Forall₂ Outlines texts nodes) :
    ∀ fuel rest, 2 * (texts.flatMap (',' :: ·)).length ≤ fuel →
      scanItems (fuel + 1) false (texts.flatMap (',' :: ·) ++ ']' :: rest) =
        (nodes, .closed, rest) := by
  induction h with
  | nil => exact fun fuel rest _ => scanItems_closed fuel false rest
  | @cons text node texts nodes hfirst hrest ih =>
      intro fuel rest hfuel
      rw [List.flatMap_cons, List.length_append, List.length_cons] at hfuel
      have hne : fuel ≠ 0 := by omega
      obtain ⟨fuel, rfl⟩ := Nat.exists_eq_succ_of_ne_zero hne
      rw [List.flatMap_cons, List.append_assoc, List.cons_append]
      exact scanItems_comma (hfirst.scan (by omega) (closes_flatMap texts (.inl rfl) rest))
        (ih fuel rest (by omega))

/-- **An array of outlined items.** -/
theorem outlines_printArray (h : List.Forall₂ Outlines texts nodes) :
    Outlines (printArray texts) (.array nodes .closed) where
  starts := ⟨'[', _, rfl, rfl, by decide⟩
  scans fuel rest hfuel _ := by
    have hitems : scanItems fuel true (commaSeparated texts ++ ']' :: rest) =
        (nodes, .closed, rest) := by
      rw [printArray, List.length_append, List.length_cons, List.length_singleton] at hfuel
      have hne : fuel ≠ 0 := by omega
      obtain ⟨fuel, rfl⟩ := Nat.exists_eq_succ_of_ne_zero hne
      cases h with
      | nil => exact scanItems_closed fuel true rest
      | @cons text node texts nodes hfirst hrest =>
          rw [commaSeparated_cons, List.length_append] at hfuel
          have hne : fuel ≠ 0 := by omega
          obtain ⟨fuel, rfl⟩ := Nat.exists_eq_succ_of_ne_zero hne
          obtain ⟨c, more, rfl, hspace, hc⟩ := hfirst.starts
          rw [commaSeparated_cons, List.append_assoc, List.cons_append]
          exact scanItems_first hspace hc
            (hfirst.scan (by omega) (closes_flatMap texts (.inl rfl) rest))
            (scanItems_tail hrest fuel rest (by omega))
    rw [printArray, List.append_assoc, List.cons_append, List.singleton_append, scanNode,
      dropSpace_cons rfl]
    simp only [hitems]

/-- A member as it is written. -/
def memberText (member : String × List Char) : List Char := printText member.1 ++ ':' :: member.2

/-- A key and a written value are outlined by the key and the outline of the value. -/
structure OutlinesMember (member : String × List Char) (node : Node × Node) : Prop where
  key : node.1 = .text (quotedOf member.1)
  value : Outlines member.2 node.2

theorem scanMembers_closed (fuel : Nat) (first : Bool) (rest : List Char) :
    scanMembers (fuel + 1) first ('\x7d' :: rest) = ([], .closed, rest) := rfl

/-- A member behind a comma, and those behind it. -/
theorem scanMembers_comma {fuel : Nat} {text afterKey rest : List Char} {quoted : Quoted}
    {node : Node} {members : List (Node × Node)} {scanned : Ending × List Char}
    (hkey : scanNode fuel text = (.text quoted, ':' :: afterKey)) (hquoted : quoted.fault = none)
    (hnode : scanNode fuel afterKey = (node, rest))
    (hmembers : scanMembers fuel false rest = (members, scanned)) :
    scanMembers (fuel + 1) false (',' :: text) = ((.text quoted, node) :: members, scanned) := by
  have hcolon : scanColon (':' :: afterKey) = .ok afterKey := rfl
  rw [scanMembers, dropSpace_cons rfl]
  simp [hkey, hquoted, hcolon, hnode, hmembers]

/-- The first member, and those behind it. -/
theorem scanMembers_first {fuel : Nat} {text afterKey rest : List Char} {quoted : Quoted}
    {node : Node} {members : List (Node × Node)} {scanned : Ending × List Char}
    (hkey : scanNode fuel ('"' :: text) = (.text quoted, ':' :: afterKey))
    (hquoted : quoted.fault = none) (hnode : scanNode fuel afterKey = (node, rest))
    (hmembers : scanMembers fuel false rest = (members, scanned)) :
    scanMembers (fuel + 1) true ('"' :: text) = ((.text quoted, node) :: members, scanned) := by
  have hcolon : scanColon (':' :: afterKey) = .ok afterKey := rfl
  rw [scanMembers, dropSpace_cons rfl]
  simp [hkey, hquoted, hcolon, hnode, hmembers]

/-- A member is scanned as its key, and behind the colon as its value. -/
theorem OutlinesMember.scan {member : String × List Char} {entry : Node × Node}
    (h : OutlinesMember member entry) {fuel : Nat} (hfuel : 2 * (memberText member).length ≤ fuel)
    (hrest : Closes rest) :
    scanNode fuel (memberText member ++ rest) =
        (.text (quotedOf member.1), ':' :: (member.2 ++ rest)) ∧
      scanNode fuel (member.2 ++ rest) = (entry.2, rest) := by
  rw [memberText, List.length_append, List.length_cons] at hfuel
  have hcolon : Closes (':' :: (member.2 ++ rest)) := .inr (.inl rfl)
  rw [memberText, List.append_assoc, List.cons_append]
  exact ⟨(outlines_printText member.1).scan (by omega) hcolon, h.value.scan (by omega) hrest⟩

variable {members : List (String × List Char)} {entries : List (Node × Node)}

/-- The members behind the first, each behind a comma. -/
theorem scanMembers_tail (h : List.Forall₂ OutlinesMember members entries) :
    ∀ fuel rest, 2 * ((members.map memberText).flatMap (',' :: ·)).length ≤ fuel →
      scanMembers (fuel + 1) false ((members.map memberText).flatMap (',' :: ·) ++ '\x7d' :: rest) =
        (entries, .closed, rest) := by
  induction h with
  | nil => exact fun fuel rest _ => scanMembers_closed fuel false rest
  | @cons member entry members entries hfirst hrest ih =>
      intro fuel rest hfuel
      rw [List.map_cons, List.flatMap_cons, List.length_append, List.length_cons] at hfuel
      have hne : fuel ≠ 0 := by omega
      obtain ⟨fuel, rfl⟩ := Nat.exists_eq_succ_of_ne_zero hne
      have hbound : 2 * (memberText member).length ≤ fuel.succ := by omega
      obtain ⟨hkey, hvalue⟩ := hfirst.scan hbound (closes_flatMap _ (.inr rfl) rest)
      rw [List.map_cons, List.flatMap_cons, List.append_assoc, List.cons_append,
        ← Prod.eta entry, hfirst.key]
      exact scanMembers_comma hkey rfl hvalue (ih fuel rest (by omega))

/-- **An object of outlined members.** -/
theorem outlines_printObject (h : List.Forall₂ OutlinesMember members entries) :
    Outlines (printObject members) (.object entries .closed) where
  starts := ⟨'\x7b', _, rfl, rfl, by decide⟩
  scans fuel rest hfuel _ := by
    have htext : printObject members =
        '\x7b' :: (commaSeparated (members.map memberText) ++ ['\x7d']) := rfl
    have hmembers :
        scanMembers fuel true (commaSeparated (members.map memberText) ++ '\x7d' :: rest) =
          (entries, .closed, rest) := by
      rw [htext, List.length_cons, List.length_append, List.length_singleton] at hfuel
      have hne : fuel ≠ 0 := by omega
      obtain ⟨fuel, rfl⟩ := Nat.exists_eq_succ_of_ne_zero hne
      cases h with
      | nil => exact scanMembers_closed fuel true rest
      | @cons member entry members entries hfirst hrest =>
          rw [List.map_cons, commaSeparated_cons, List.length_append] at hfuel
          have hne : fuel ≠ 0 := by omega
          obtain ⟨fuel, rfl⟩ := Nat.exists_eq_succ_of_ne_zero hne
          have hbound : 2 * (memberText member).length ≤ fuel.succ := by omega
          obtain ⟨hkey, hvalue⟩ := hfirst.scan hbound (closes_flatMap _ (.inr rfl) rest)
          rw [List.map_cons, commaSeparated_cons, List.append_assoc, ← Prod.eta entry, hfirst.key]
          exact scanMembers_first hkey rfl hvalue (scanMembers_tail hrest fuel rest (by omega))
    rw [htext, List.cons_append, List.append_assoc, List.singleton_append, scanNode,
      dropSpace_cons rfl]
    simp only [hmembers]

end Shaderworks.Json
