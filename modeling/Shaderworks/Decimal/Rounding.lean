/-
**Rounding a quotient to the nearest whole number.**

Main definitions:

* `roundHalfEven` — the whole number nearest to a quotient; of two equally near ones, the even one;
* `fixedText` — a quotient with a fixed number of decimal places.
-/

import Shaderworks.Decimal.Power

set_option autoImplicit false

namespace Shaderworks.Decimal

/-- The whole number nearest to `num / den`; of two equally near ones, the even one. -/
def roundHalfEven (num den : Nat) : Nat :=
  if 2 * (num % den) < den then num / den
  else if den < 2 * (num % den) then num / den + 1
  else num / den + num / den % 2

/-- A text of digits, filled up with leading zeros to a width. -/
def padLeft (width : Nat) (digits : List Char) : List Char :=
  List.replicate (width - digits.length) '0' ++ digits

/-- A quotient with `places` decimal places, at least one, a half going to the even neighbour. -/
def fixedText (places num den : Nat) : String :=
  let scaled := roundHalfEven (num * tenTo places) den
  let fraction := padLeft places (toString (scaled % tenTo places)).toList
  toString (scaled / tenTo places) ++ "." ++ String.ofList fraction

end Shaderworks.Decimal
