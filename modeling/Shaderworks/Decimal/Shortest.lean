/-
**The shortest decimal form of a floating-point number.**

A number is written with the fewest decimal digits that read back as the same number, and of those
the digits nearest to it.  The numbers that read back as `x` are those that round to it: they reach
half way to its neighbours, the ends included when the significand is even.

Main definitions:

* `shortest` — the digits and the power of ten;
* `NumberStyle` — where positional notation ends and how an exponent is marked;
* `NumberStyle.render` — the text of a number in a style.
-/

import Shaderworks.Decimal.Binary64

set_option autoImplicit false

namespace Shaderworks.Decimal

/-- A decimal number: a whole number times a power of ten. -/
structure Digits where
  /-- The digits as a whole number. -/
  coefficient : Nat
  /-- The power of ten. -/
  exponent : Int
  deriving DecidableEq

/-- Whether a decimal number rounds to `x`, which is not zero. -/
def roundsTo (d : Digits) (x : Binary64) : Bool :=
  let m := x.significand
  -- in quarters of the distance to the neighbour above
  let lowGap := if m = twoTo 52 ∧ x.scale ≠ -1074 then 1 else 2
  let unitNum := twoTo (x.scale - 2).toNat
  let unitDen := twoTo (2 - x.scale).toNat
  let value := d.coefficient * tenTo d.exponent.toNat * unitDen
  let scaleBy := tenTo (-d.exponent).toNat * unitNum
  let low := (4 * m - lowGap) * scaleBy
  let high := (4 * m + 2) * scaleBy
  if m % 2 = 0 then low ≤ value && value ≤ high else low < value && value < high

/-- The numerator and denominator of `x` divided by a power of ten. -/
def overPowerOfTen (x : Binary64) (k : Int) : Nat × Nat :=
  (x.ratio.1 * tenTo (-k).toNat, x.ratio.2 * tenTo k.toNat)

/-- The multiple of a power of ten that rounds to `x`, if there is one; of two the nearer, and of
two equally near ones the even one. -/
def onGrid? (x : Binary64) (k : Int) : Option Digits :=
  let (num, den) := overPowerOfTen x k
  let nearer := roundHalfEven num den
  let other := if nearer = num / den then nearer + 1 else nearer - 1
  if roundsTo ⟨nearer, k⟩ x then some ⟨nearer, k⟩
  else if roundsTo ⟨other, k⟩ x then some ⟨other, k⟩
  else none

/-- The coarsest grid of `count` grids, from `10 ^ k` downwards, that has a number rounding to
`x`. -/
def coarsest (x : Binary64) : Nat → Int → Digits
  | 0, k => ⟨x.significand, k⟩
  | count + 1, k => (onGrid? x k).getD (coarsest x count (k - 1))

/-- The fewest digits that read back as `x`, nearest to it. -/
def shortest (x : Binary64) : Digits :=
  if x.isZero then ⟨0, 0⟩ else coarsest x 660 309

/-- How a floating-point number is written. -/
structure NumberStyle where
  /-- The least decimal exponent that is written positionally. -/
  leastPositional : Int
  /-- The greatest decimal exponent that is written positionally. -/
  greatestPositional : Int
  /-- What stands before a positive exponent. -/
  positiveMark : String

namespace NumberStyle

/-- The digits with a point after the first one, if there is more than one. -/
def pointed : List Char → List Char
  | [] => []
  | [d] => [d]
  | d :: rest => d :: '.' :: rest

/-- The text of digits and a power of ten.  A whole number gets `.0`. -/
def renderDigits (style : NumberStyle) (d : Digits) : String :=
  let digits := (toString d.coefficient).toList
  let exponent := d.exponent + digits.length - 1
  if style.leastPositional ≤ exponent ∧ exponent ≤ style.greatestPositional then
    if 0 ≤ d.exponent then
      String.ofList (digits ++ List.replicate d.exponent.toNat '0' ++ ['.', '0'])
    else if 0 ≤ exponent then
      String.ofList (digits.take (exponent + 1).toNat ++ '.' :: digits.drop (exponent + 1).toNat)
    else
      String.ofList (['0', '.'] ++ List.replicate (-exponent - 1).toNat '0' ++ digits)
  else
    let mark := if 0 ≤ exponent then style.positiveMark else "-"
    String.ofList (pointed digits) ++ "e" ++ mark ++ toString exponent.natAbs

/-- The text of a number. -/
def render (style : NumberStyle) (x : Binary64) : String :=
  (if x.negative then "-" else "") ++ style.renderDigits (shortest x)

end NumberStyle

end Shaderworks.Decimal
