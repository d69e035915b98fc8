/-
**The marks around included files.**

Expanded lines are read back here without knowing where they come from.  Two kinds of comment lines
mark where the text of a file begins and where it ends; between the two is the block of the file.
Blocks may be nested, and what stands at the top of some lines is what is left of them when every
nested block is taken out.

Main definitions:

* `Mark`, `markOf` — what a line marks;
* `openBlocks` — the blocks that some lines leave open;
* `begun` — the paths whose blocks some lines begin;
* `Item`, `topLevel` — what stands at the top of some lines;
* `Nested` — lines in which every block that begins ends again.

Main results:

* `Nested.openBlocks_eq` — nested lines leave open what was open before;
* `Nested.topLevel_append` — nested lines inside a block do not show at the top.
-/

import Shaderworks.Shader.Expansion

set_option autoImplicit false

namespace Shaderworks.Shader

open Text

/-! ### Marks -/

/-- What a line marks. -/
inductive Mark where
  /-- The beginning of the text of a file. -/
  | begins (path : List Char)
  /-- The end of the text of a file. -/
  | ends (path : List Char)
  /-- Nothing. -/
  | text
  deriving DecidableEq

/-- What a line marks. -/
def markOf (line : List Char) : Mark :=
  match after? "// BEGIN INCLUDE ".toList line with
  | some path => .begins path
  | none =>
      match after? "// END INCLUDE ".toList line with
      | some path => .ends path
      | none => .text

/-- Lines of which none starts like a mark. -/
def Unmarked (ls : List (List Char)) : Prop :=
  ∀ line ∈ ls, ¬ "// BEGIN INCLUDE ".toList <+: line ∧ ¬ "// END INCLUDE ".toList <+: line

theorem markOf_eq_begins_iff {line path : List Char} :
    markOf line = .begins path ↔ line = beginLine path := by
  have hafter : markOf line = .begins path ↔
      after? "// BEGIN INCLUDE ".toList line = some path := by
    unfold markOf
    split
    · next other hother => rw [hother, Mark.begins.injEq, Option.some.injEq]
    · next hnone =>
        rw [hnone]
        split <;> simp
  rw [hafter, after?_eq_some_iff]
  rfl

@[simp] theorem markOf_beginLine (path : List Char) : markOf (beginLine path) = .begins path :=
  markOf_eq_begins_iff.2 rfl

@[simp] theorem markOf_endLine (path : List Char) : markOf (endLine path) = .ends path := by
  have hend : after? "// END INCLUDE ".toList (endLine path) = some path :=
    after?_eq_some_iff.2 rfl
  have hbegin : after? "// BEGIN INCLUDE ".toList (endLine path) = none := rfl
  rw [markOf, hbegin, hend]

theorem after?_eq_none {piece text : List Char} (h : ¬ piece <+: text) :
    after? piece text = none := by
  cases hafter : after? piece text with
  | none => rfl
  | some rest => exact absurd ⟨rest, (after?_eq_some_iff.1 hafter).symm⟩ h

theorem markOf_of_unmarked {ls : List (List Char)} (h : Unmarked ls) {line : List Char}
    (hline : line ∈ ls) : markOf line = .text := by
  obtain ⟨hbegin, hend⟩ := h line hline
  rw [markOf, after?_eq_none hbegin, after?_eq_none hend]

theorem ne_beginLine_of_markOf {line : List Char} (h : markOf line = .text) (path : List Char) :
    line ≠ beginLine path := by
  rintro rfl
  rw [markOf_beginLine] at h
  cases h

/-- The comment for a repeated directive is no mark. -/
theorem markOf_repeatedLine {line : List Char} (h : line.head? ≠ some 'B' ∧ line.head? ≠ some 'E') :
    markOf (repeatedLine line) = .text := by
  obtain ⟨hB, hE⟩ := h
  cases line with
  | nil => rfl
  | cons c line =>
      have hB : 'B' ≠ c := fun heq => hB (by rw [← heq]; rfl)
      have hE : 'E' ≠ c := fun heq => hE (by rw [← heq]; rfl)
      simp [markOf, repeatedLine, after?, hB, hE]

/-! ### Blocks -/

/-- The blocks that are open after a mark, innermost first, if they are those of the stack before.
An end that does not belong to the innermost open block is a mistake. -/
def Mark.apply : Mark → List (List Char) → Option (List (List Char))
  | .begins path, stack => some (path :: stack)
  | .ends path, top :: stack => if path = top then some stack else none
  | .ends _, [] => none
  | .text, stack => some stack

/-- The blocks that are open after some lines. -/
def openBlocks (stack ls : List (List Char)) : Option (List (List Char)) :=
  ls.foldlM (fun stack line => (markOf line).apply stack) stack

/-- The paths whose blocks some lines begin, in order. -/
def begun (ls : List (List Char)) : List (List Char) :=
  ls.filterMap fun line =>
    match markOf line with
    | .begins path => some path
    | _ => none

section Blocks

variable {line path : List Char} (stack rest : List (List Char))

theorem openBlocks_cons :
    openBlocks stack (line :: rest) =
      ((markOf line).apply stack).bind fun stack => openBlocks stack rest :=
  rfl

theorem openBlocks_text (h : markOf line = .text) :
    openBlocks stack (line :: rest) = openBlocks stack rest := by
  rw [openBlocks_cons, h]
  rfl

theorem openBlocks_beginLine :
    openBlocks stack (beginLine path :: rest) = openBlocks (path :: stack) rest := by
  rw [openBlocks_cons, markOf_beginLine]
  rfl

theorem openBlocks_endLine :
    openBlocks (path :: stack) (endLine path :: rest) = openBlocks stack rest := by
  rw [openBlocks_cons, markOf_endLine, Mark.apply, if_pos rfl]
  rfl

theorem openBlocks_append (ls : List (List Char)) :
    openBlocks stack (ls ++ rest) =
      (openBlocks stack ls).bind fun stack => openBlocks stack rest :=
  List.foldlM_append

theorem begun_append (ls : List (List Char)) : begun (ls ++ rest) = begun ls ++ begun rest :=
  List.filterMap_append

theorem begun_text (h : markOf line = .text) : begun (line :: rest) = begun rest := by
  simp [begun, h]

@[simp] theorem begun_beginLine : begun (beginLine path :: rest) = path :: begun rest := by
  simp [begun]

@[simp] theorem begun_endLine : begun (endLine path :: rest) = begun rest := by
  simp [begun]

/-- A path is begun exactly where its mark stands. -/
theorem mem_begun_iff {ls : List (List Char)} : path ∈ begun ls ↔ beginLine path ∈ ls := by
  unfold begun
  rw [List.mem_filterMap]
  constructor
  · rintro ⟨line, hline, hmark⟩
    split at hmark
    · next other hother =>
        rw [Option.some.injEq] at hmark
        rw [hmark, markOf_eq_begins_iff] at hother
        exact hother ▸ hline
    · cases hmark
  · intro hline
    exact ⟨_, hline, by rw [markOf_beginLine]⟩

end Blocks

/-! ### Where a block begins -/

/-- A beginning among lines of which the first is no mark stands among the others. -/
theorem begins_behind_text {line path : List Char} {ls front rest : List (List Char)}
    (hline : markOf line = .text) (h : line :: ls = front ++ beginLine path :: rest) :
    ∃ front', front = line :: front' ∧ ls = front' ++ beginLine path :: rest := by
  cases front with
  | nil => exact absurd (List.cons.inj h).1 (ne_beginLine_of_markOf hline path)
  | cons other front =>
      obtain ⟨rfl, hls⟩ := List.cons.inj h
      exact ⟨front, rfl, hls⟩

theorem endLine_ne_beginLine (path path' : List Char) : endLine path ≠ beginLine path' := by
  intro h
  have hmark := markOf_endLine path
  rw [h, markOf_beginLine] at hmark
  cases hmark

/-- A beginning among a block and the lines behind it is that of the block, or stands in the block,
or behind it. -/
theorem begins_in_block {path path' : List Char} {body ls front rest : List (List Char)}
    (h : beginLine path :: body ++ endLine path :: ls = front ++ beginLine path' :: rest) :
    (front = [] ∧ path' = path ∧ rest = body ++ endLine path :: ls) ∨
      (∃ front' rest', front = beginLine path :: front' ∧
        body = front' ++ beginLine path' :: rest' ∧ rest = rest' ++ endLine path :: ls) ∨
      ∃ front', front = beginLine path :: body ++ endLine path :: front' ∧
        ls = front' ++ beginLine path' :: rest := by
  cases front with
  | nil =>
      obtain ⟨hpath, hrest⟩ := List.cons.inj h
      exact .inl ⟨rfl, (List.append_cancel_left hpath).symm, hrest.symm⟩
  | cons line front =>
      obtain ⟨rfl, hbody⟩ := List.cons.inj h
      -- It is not the end of the block itself, so it stands before that end or after it.
      rcases List.append_eq_append_iff.1 hbody with ⟨between, rfl, hls⟩ | ⟨between, rfl, hrest⟩
      · cases between with
        | nil => exact absurd (List.cons.inj hls).1 (endLine_ne_beginLine path path')
        | cons line between =>
            obtain ⟨rfl, hbehind⟩ := List.cons.inj hls
            exact .inr (.inr ⟨between, rfl, hbehind⟩)
      · cases between with
        | nil => exact absurd (List.cons.inj hrest).1.symm (endLine_ne_beginLine path path')
        | cons line between =>
            obtain ⟨rfl, hinside⟩ := List.cons.inj hrest
            exact .inr (.inl ⟨front, between, rfl, rfl, hinside⟩)

/-! ### What stands at the top -/

/-- What stands at the top of some lines: a line, or the block of a path. -/
inductive Item where
  /-- A line. -/
  | line (line : List Char)
  /-- The block of a path. -/
  | block (path : List Char)
  deriving DecidableEq

/-- What stands at the top of some lines inside `depth` blocks, each with all the lines before it;
`before` are those before the first. -/
def topLevel : List (List Char) → Nat → List (List Char) → List (List (List Char) × Item)
  | _, _, [] => []
  | before, 0, line :: rest =>
      match markOf line with
      | .begins path => (before, .block path) :: topLevel (before ++ [line]) 1 rest
      | _ => (before, .line line) :: topLevel (before ++ [line]) 0 rest
  | before, depth + 1, line :: rest =>
      match markOf line with
      | .begins _ => topLevel (before ++ [line]) (depth + 2) rest
      | .ends _ => topLevel (before ++ [line]) depth rest
      | .text => topLevel (before ++ [line]) (depth + 1) rest

theorem topLevel_text {line : List Char} (h : markOf line = .text)
    (before rest : List (List Char)) :
    topLevel before 0 (line :: rest) =
      (before, .line line) :: topLevel (before ++ [line]) 0 rest := by
  rw [topLevel, h]

/-- Lines in which every block that begins ends again. -/
inductive Nested : List (List Char) → Prop
  /-- No lines. -/
  | nil : Nested []
  /-- A line that is no mark. -/
  | text {line : List Char} {rest : List (List Char)} (hline : markOf line = .text)
      (hrest : Nested rest) : Nested (line :: rest)
  /-- A block. -/
  | block {path : List Char} {body rest : List (List Char)} (hbody : Nested body)
      (hrest : Nested rest) : Nested (beginLine path :: body ++ endLine path :: rest)

namespace Nested

variable {ls : List (List Char)}

/-- Nested lines leave open what was open before. -/
theorem openBlocks_eq (h : Nested ls) : ∀ stack, openBlocks stack ls = some stack := by
  induction h with
  | nil => exact fun stack => rfl
  | text hline hrest ih =>
      intro stack
      rw [openBlocks_text _ _ hline]
      exact ih stack
  | block hbody hrest ihbody ihrest =>
      intro stack
      rw [List.cons_append, openBlocks_beginLine, openBlocks_append, ihbody, Option.bind_some,
        openBlocks_endLine]
      exact ihrest stack

/-- Inside a block, nested lines do not show at the top. -/
theorem topLevel_append (h : Nested ls) : ∀ before depth rest,
    topLevel before (depth + 1) (ls ++ rest) = topLevel (before ++ ls) (depth + 1) rest := by
  induction h with
  | nil =>
      intro before depth rest
      rw [List.append_nil, List.nil_append]
  | @text line ls hline hrest ih =>
      intro before depth rest
      rw [List.cons_append, topLevel, hline]
      dsimp only
      rw [ih, List.append_assoc, List.singleton_append]
  | @block path body ls hbody hrest ihbody ihrest =>
      intro before depth rest
      have hassoc : beginLine path :: body ++ endLine path :: ls ++ rest =
          beginLine path :: (body ++ endLine path :: (ls ++ rest)) := by
        simp
      rw [hassoc, topLevel, markOf_beginLine]
      dsimp only
      rw [ihbody, topLevel, markOf_endLine]
      dsimp only
      rw [ihrest]
      simp

/-- At the top, a block is one item, and what follows it comes next. -/
theorem topLevel_block {body : List (List Char)} (h : Nested body) (path : List Char)
    (before rest : List (List Char)) :
    topLevel before 0 (beginLine path :: body ++ endLine path :: rest) =
      (before, .block path) ::
        topLevel (before ++ (beginLine path :: body ++ [endLine path])) 0 rest := by
  rw [List.cons_append, topLevel, markOf_beginLine]
  dsimp only
  rw [h.topLevel_append, topLevel, markOf_endLine]
  simp

end Nested

end Shaderworks.Shader
