/-
**Blank characters.**

Which characters count as white space in a shader source: the twenty-five characters with the
Unicode property White_Space.  Directives may be indented and spaced with any of them.

Main definitions:

* `isBlank` — whether a character is blank;
* `dropBlank` — a text without its leading blanks.
-/

set_option autoImplicit false

namespace Shaderworks.Text

/-- The ranges of the Unicode property White_Space, as first and last code point. -/
def blankRanges : List (Nat × Nat) :=
  [(0x9, 0xD), (0x20, 0x20), (0x85, 0x85), (0xA0, 0xA0), (0x1680, 0x1680), (0x2000, 0x200A),
    (0x2028, 0x2029), (0x202F, 0x202F), (0x205F, 0x205F), (0x3000, 0x3000)]

/-- Whether a character is white space. -/
def isBlank (c : Char) : Bool :=
  blankRanges.any fun r => r.1 ≤ c.toNat && c.toNat ≤ r.2

/-- A text without its leading blanks. -/
def dropBlank (text : List Char) : List Char := text.dropWhile isBlank

/-- The property holds of twenty-five characters. -/
example : (blankRanges.map fun r => r.2 - r.1 + 1).sum = 25 := by decide

end Shaderworks.Text
