/-
**Include directives.**

A line that asks for another file names it between a double quote or `<` and a double quote or `>`,
after `#` and the word `include`.  Blanks may stand before and after `#`, and one at least stands
after the word.  The two marks around the path need not match, and the path holds no quote of either
kind and no `>`.

Main definitions:

* `includePath?` — the path that a line asks for, if it is a directive;
* `includesOf` — the paths that a source asks for, in order;
* `Sources` — texts by path.

Main results:

* `includePath?_of_not_hash` — a line whose first visible character is not `#` is no directive.
-/

import Shaderworks.Data.NameMap
import Shaderworks.Text.Blank
import Shaderworks.Text.Lines
import Shaderworks.Text.Search

set_option autoImplicit false

namespace Shaderworks

open Text

/-- Texts by path. -/
abbrev Sources := NameMap String

namespace Shader

/-- Whether a character opens the path of a directive. -/
def opensPath (c : Char) : Bool := c == '"' || c == '<'

/-- Whether a character closes the path of a directive. -/
def closesPath (c : Char) : Bool := c == '"' || c == '>'

/-- Whether a character may stand in the path of a directive. -/
def isPathChar (c : Char) : Bool := !(c == '"' || c == '\x27' || c == '>')

/-- The path that follows the opening mark: not empty, and ended by a closing mark. -/
def closedPath? (body : List Char) : Option (List Char) :=
  match body.takeWhile isPathChar, body.dropWhile isPathChar with
  | [], _ => none
  | _, [] => none
  | path, c :: _ => if closesPath c then some path else none

/-- The path between the marks that follow the word and at least one blank. -/
def quotedPath? (afterWord : List Char) : Option (List Char) :=
  match dropBlank afterWord with
  | [] => none
  | c :: body =>
      if opensPath c && dropBlank afterWord != afterWord then closedPath? body else none

/-- The path that a line asks for, if the line is an include directive. -/
def includePath? (line : List Char) : Option (List Char) :=
  ((after? ['#'] (dropBlank line)).bind fun afterHash =>
    after? "include".toList (dropBlank afterHash)).bind quotedPath?

/-- The paths that a source asks for, in the order of its lines. -/
def includesOf (source : String) : List String :=
  ((lines source.toList).filterMap includePath?).map String.ofList

/-- A line whose first visible character is not `#` is no directive. -/
theorem includePath?_of_not_hash {line : List Char} (h : (dropBlank line).head? ≠ some '#') :
    includePath? line = none := by
  have hnone : after? ['#'] (dropBlank line) = none := by
    cases hd : dropBlank line with
    | nil => rfl
    | cons c rest =>
        have hc : '#' ≠ c := fun heq => h (by rw [hd, ← heq]; rfl)
        simp [after?, hc]
  simp [includePath?, hnone]

end Shader

end Shaderworks
