/-
**The grammar of include directives.**

A line is read by taking things off its front: blanks, the hash, blanks, the word, blanks, a mark, and
then the longest piece that may be a path.  What is read in this way is described here by what the
line is made of.  Each of the pieces ends at a character that cannot belong to it, so there is only
one way to take a line apart.

Main definitions:

* `Directive` — a directive, piece by piece;
* `Directive.line` — the line that the pieces make up;
* `Directive.append` — a directive with more text behind it.

Main results:

* `closedPath?_eq_some_iff`, `quotedPath?_eq_some_iff`, `includePath?_eq_some_iff` — what each step of
  the reading takes;
* `Directive.includePath?_line`, `Directive.exists_of_includePath?` — a line asks for the path of the
  directive that it is, and a line that asks for a path is a directive;
* `Directive.line_injective` — different directives make different lines;
* `includePath?_grammar` — **all three together**;
* `includePath?_append` — what follows a directive does not matter.
-/

import Shaderworks.Proofs.Text.Pieces
import Shaderworks.Shader.Include

set_option autoImplicit false

namespace Shaderworks.Shader

open Text

/-! ### The steps of the reading -/

theorem isPathChar_iff {c : Char} : isPathChar c = true ↔ c ≠ '"' ∧ c ≠ '\x27' ∧ c ≠ '>' := by
  simp [isPathChar, and_assoc]

theorem opensPath_iff {c : Char} : opensPath c = true ↔ c = '"' ∨ c = '<' := by
  simp [opensPath]

theorem closesPath_iff {c : Char} : closesPath c = true ↔ c = '"' ∨ c = '>' := by
  simp [closesPath]

theorem isPathChar_of_closesPath {c : Char} (h : closesPath c = true) : isPathChar c = false := by
  rcases closesPath_iff.1 h with rfl | rfl <;> decide

theorem isBlank_of_opensPath {c : Char} (h : opensPath c = true) : isBlank c = false := by
  rcases opensPath_iff.1 h with rfl | rfl <;> decide

/-- A path is closed by the first character that cannot belong to it. -/
theorem closedPath?_eq_some_iff {body path : List Char} :
    closedPath? body = some path ↔
      path ≠ [] ∧ (∀ x ∈ path, isPathChar x = true) ∧
        ∃ closing rest, closesPath closing = true ∧ body = path ++ closing :: rest := by
  constructor
  · intro h
    have hparts : body.takeWhile isPathChar ++ body.dropWhile isPathChar = body :=
      List.takeWhile_append_dropWhile
    have hchars : ∀ x ∈ body.takeWhile isPathChar, isPathChar x = true :=
      List.all_eq_true.1 List.all_takeWhile
    unfold closedPath? at h
    split at h
    · cases h
    · cases h
    · next closing rest hdrop hne =>
        split at h
        · next hcloses =>
            rw [hdrop] at hparts
            obtain rfl := Option.some.inj h
            exact ⟨hne, hchars, closing, rest, hcloses, hparts.symm⟩
        · cases h
  · rintro ⟨hne, hchars, closing, rest, hcloses, rfl⟩
    have hstop := isPathChar_of_closesPath hcloses
    rw [closedPath?, takeWhile_piece hchars hstop, dropWhile_piece hchars hstop]
    cases path with
    | nil => exact absurd rfl hne
    | cons c path => simp [hcloses]

/-- A path is opened behind one blank or more. -/
theorem quotedPath?_eq_some_iff {afterWord path : List Char} :
    quotedPath? afterWord = some path ↔
      ∃ space opening body, space ≠ [] ∧ (∀ x ∈ space, isBlank x = true) ∧
        opensPath opening = true ∧ afterWord = space ++ opening :: body ∧
        closedPath? body = some path := by
  constructor
  · intro h
    unfold quotedPath? at h
    split at h
    · cases h
    · next opening body hdrop =>
        obtain ⟨-, space, hspace, hafter⟩ := dropWhile_eq_cons_iff.1 hdrop
        split at h
        · next hopens =>
            rw [Bool.and_eq_true, bne_iff_ne] at hopens
            refine ⟨space, opening, body, ?_, hspace, hopens.1, hafter, h⟩
            rintro rfl
            exact hopens.2 (hdrop.trans hafter.symm)
        · cases h
  · rintro ⟨space, opening, body, hne, hspace, hopens, rfl, hclosed⟩
    have hdrop : dropBlank (space ++ opening :: body) = opening :: body :=
      dropWhile_piece hspace (isBlank_of_opensPath hopens)
    have hmore : opening :: body ≠ space ++ opening :: body := by
      intro heq
      have hlength := congrArg List.length heq
      simp at hlength
      exact hne hlength
    rw [quotedPath?, hdrop]
    simp [hopens, hmore, hclosed]

/-- The word stands behind the hash, both behind blanks. -/
theorem includePath?_eq_some_iff {line path : List Char} :
    includePath? line = some path ↔
      ∃ indent gap afterWord, (∀ x ∈ indent, isBlank x = true) ∧ (∀ x ∈ gap, isBlank x = true) ∧
        line = indent ++ '#' :: (gap ++ ("include".toList ++ afterWord)) ∧
        quotedPath? afterWord = some path := by
  constructor
  · intro h
    obtain ⟨afterWord, hword, hquoted⟩ := Option.bind_eq_some_iff.1 h
    obtain ⟨afterHash, hhash, hinclude⟩ := Option.bind_eq_some_iff.1 hword
    rw [after?_eq_some_iff] at hhash hinclude
    obtain ⟨-, indent, hindent, rfl⟩ := dropWhile_eq_cons_iff.1 hhash
    obtain ⟨-, gap, hgap, rfl⟩ := dropWhile_eq_cons_iff.1 hinclude
    exact ⟨indent, gap, afterWord, hindent, hgap, rfl, hquoted⟩
  · rintro ⟨indent, gap, afterWord, hindent, hgap, rfl, hquoted⟩
    have hhash : dropBlank (indent ++ '#' :: (gap ++ ("include".toList ++ afterWord))) =
        ['#'] ++ (gap ++ ("include".toList ++ afterWord)) :=
      dropWhile_piece hindent (by decide)
    have hinclude : dropBlank (gap ++ ("include".toList ++ afterWord)) =
        "include".toList ++ afterWord :=
      dropWhile_piece hgap (by decide)
    rw [includePath?, after?_eq_some_iff.2 hhash, Option.bind_some,
      after?_eq_some_iff.2 hinclude, Option.bind_some, hquoted]

/-! ### Directives -/

/-- An include directive, piece by piece. -/
@[ext] structure Directive where
  /-- The blanks before the hash. -/
  indent : List Char
  /-- The blanks between the hash and the word. -/
  gap : List Char
  /-- The blanks between the word and the path. -/
  space : List Char
  /-- The mark before the path. -/
  opening : Char
  /-- The path. -/
  path : List Char
  /-- The mark behind the path. -/
  closing : Char
  /-- What follows. -/
  rest : List Char
  blank_indent : ∀ c ∈ indent, isBlank c = true
  blank_gap : ∀ c ∈ gap, isBlank c = true
  blank_space : ∀ c ∈ space, isBlank c = true
  space_ne_nil : space ≠ []
  opens : opening = '"' ∨ opening = '<'
  path_ne_nil : path ≠ []
  path_chars : ∀ c ∈ path, c ≠ '"' ∧ c ≠ '\x27' ∧ c ≠ '>'
  closes : closing = '"' ∨ closing = '>'

namespace Directive

/-- The line that the pieces of a directive make up. -/
def line (d : Directive) : List Char :=
  d.indent ++ '#' :: (d.gap ++ ("include".toList ++
    (d.space ++ d.opening :: (d.path ++ d.closing :: d.rest))))

/-- A directive with more text behind it. -/
def append (d : Directive) (more : List Char) : Directive := { d with rest := d.rest ++ more }

@[simp] theorem path_append (d : Directive) (more : List Char) : (d.append more).path = d.path := rfl

@[simp] theorem line_append (d : Directive) (more : List Char) :
    (d.append more).line = d.line ++ more := by
  simp [line, append]

theorem isPathChar_path (d : Directive) : ∀ c ∈ d.path, isPathChar c = true :=
  fun c hc => isPathChar_iff.2 (d.path_chars c hc)

/-- **A line asks for the path of the directive that it is.** -/
theorem includePath?_line (d : Directive) : includePath? d.line = some d.path := by
  have hclosed : closedPath? (d.path ++ d.closing :: d.rest) = some d.path :=
    closedPath?_eq_some_iff.2 ⟨d.path_ne_nil, d.isPathChar_path, d.closing, d.rest,
      closesPath_iff.2 d.closes, rfl⟩
  have hquoted : quotedPath? (d.space ++ d.opening :: (d.path ++ d.closing :: d.rest)) =
      some d.path :=
    quotedPath?_eq_some_iff.2 ⟨d.space, d.opening, _, d.space_ne_nil, d.blank_space,
      opensPath_iff.2 d.opens, rfl, hclosed⟩
  exact includePath?_eq_some_iff.2 ⟨d.indent, d.gap, _, d.blank_indent, d.blank_gap, rfl, hquoted⟩

/-- **A line that asks for a path is a directive for it.** -/
theorem exists_of_includePath? {line path : List Char} (h : includePath? line = some path) :
    ∃ d : Directive, d.line = line ∧ d.path = path := by
  obtain ⟨indent, gap, afterWord, hindent, hgap, rfl, hquoted⟩ := includePath?_eq_some_iff.1 h
  obtain ⟨space, opening, body, hne, hspace, hopens, rfl, hclosed⟩ :=
    quotedPath?_eq_some_iff.1 hquoted
  obtain ⟨hpath, hchars, closing, rest, hcloses, rfl⟩ := closedPath?_eq_some_iff.1 hclosed
  exact ⟨{
    indent, gap, space, opening, path, closing, rest
    blank_indent := hindent
    blank_gap := hgap
    blank_space := hspace
    space_ne_nil := hne
    opens := opensPath_iff.1 hopens
    path_ne_nil := hpath
    path_chars := fun c hc => isPathChar_iff.1 (hchars c hc)
    closes := closesPath_iff.1 hcloses }, rfl, rfl⟩

/-- **Different directives make different lines.** -/
theorem line_injective : Function.Injective line := by
  intro d d' h
  -- From left to right, each piece ends at a character that cannot belong to it.
  obtain ⟨hindent, -, hbehind⟩ := piece_unique d.blank_indent (by decide) d'.blank_indent
    (by decide) h
  obtain ⟨hgap, -, hbehind⟩ := piece_unique d.blank_gap (by decide) d'.blank_gap (by decide) hbehind
  obtain ⟨hspace, hopening, hbehind⟩ := piece_unique d.blank_space
    (isBlank_of_opensPath (opensPath_iff.2 d.opens)) d'.blank_space
    (isBlank_of_opensPath (opensPath_iff.2 d'.opens)) (List.append_cancel_left hbehind)
  obtain ⟨hpath, hclosing, hrest⟩ := piece_unique d.isPathChar_path
    (isPathChar_of_closesPath (closesPath_iff.2 d.closes)) d'.isPathChar_path
    (isPathChar_of_closesPath (closesPath_iff.2 d'.closes)) hbehind
  exact Directive.ext hindent hgap hspace hopening hpath hclosing hrest

end Directive

/-- What follows a directive does not matter. -/
theorem includePath?_append {line path : List Char} (h : includePath? line = some path)
    (more : List Char) : includePath? (line ++ more) = some path := by
  obtain ⟨d, rfl, rfl⟩ := Directive.exists_of_includePath? h
  rw [← d.line_append, Directive.includePath?_line, d.path_append]

/-- **A line asks for a path exactly if it is a directive for it:** blanks, the hash, blanks, the word,
one blank or more, an opening mark, the path, a closing mark, and anything.  A line is no more than
one directive, and one that is none asks for nothing. -/
theorem includePath?_grammar (line : List Char) :
    (∀ path, includePath? line = some path ↔ ∃ d : Directive, d.line = line ∧ d.path = path) ∧
      (∀ d d' : Directive, d.line = line → d'.line = line → d = d') ∧
      (includePath? line = none ↔ ¬ ∃ d : Directive, d.line = line) := by
  have haccepts : ∀ path, includePath? line = some path ↔
      ∃ d : Directive, d.line = line ∧ d.path = path := by
    intro path
    constructor
    · exact Directive.exists_of_includePath?
    · rintro ⟨d, rfl, rfl⟩
      exact d.includePath?_line
  refine ⟨haccepts, fun d d' h h' => Directive.line_injective (h.trans h'.symm), ?_⟩
  constructor
  · rintro hnone ⟨d, hline⟩
    rw [(haccepts d.path).2 ⟨d, hline, rfl⟩] at hnone
    cases hnone
  · intro hno
    cases hpath : includePath? line with
    | none => rfl
    | some path =>
        obtain ⟨d, hline, -⟩ := (haccepts path).1 hpath
        exact absurd ⟨d, hline⟩ hno

/-- A directive with blanks of several kinds, marks that do not match and one of them in its path,
and a line that only looks like it: its path meets a single quote before a closing mark. -/
theorem includePath?_grammar_mixed :
    let d : Directive := {
      indent := ['\u2003'], gap := ['\t'], space := [' ', '\u00a0'], opening := '"'
      path := "a<b".toList, closing := '>', rest := "\" // \x27c\x27".toList
      blank_indent := List.all_eq_true.1 (by decide)
      blank_gap := List.all_eq_true.1 (by decide)
      blank_space := List.all_eq_true.1 (by decide)
      space_ne_nil := by decide
      opens := by decide
      path_ne_nil := by decide
      path_chars := fun c hc => isPathChar_iff.1 (List.all_eq_true.1 (by decide) c hc)
      closes := by decide }
    let quoted := "#include \"it\x27s\"".toList
    d.line = "\u2003#\tinclude \u00a0\"a<b>\" // \x27c\x27".toList ∧
      includePath? d.line = some "a<b".toList ∧ (∀ d' : Directive, d'.line = d.line → d' = d) ∧
      includePath? quoted = none ∧ ¬ ∃ d : Directive, d.line = quoted := by
  intro d quoted
  obtain ⟨haccepts, hunique, -⟩ := includePath?_grammar d.line
  obtain ⟨-, -, hnone⟩ := includePath?_grammar quoted
  have hquoted : includePath? quoted = none := by decide
  exact ⟨by decide, (haccepts d.path).2 ⟨d, rfl, rfl⟩, fun d' h => hunique d' d h rfl, hquoted,
    hnone.1 hquoted⟩

end Shaderworks.Shader
