/-
**Binary floating-point numbers of sixty-four bits.**

A finite number of the common double format, as a sign and the word of its other bits, and the
rounding of a quotient to the nearest such number.  All arithmetic is on whole numbers.

Main definitions:

* `Binary64` — a finite number;
* `Binary64.significand`, `Binary64.scale` — the whole number and the power of two it stands for;
* `Binary64.ratio` — its size as a quotient of whole numbers;
* `Binary64.nearest?` — the number nearest to a quotient, if the quotient is not too large;
* `Binary64.mul?`, `Binary64.div?` — product and quotient, rounded once.
-/

import Shaderworks.Decimal.Rounding

set_option autoImplicit false

namespace Shaderworks.Decimal

/-- The words of finite numbers are below this one. -/
def infiniteWord : Nat := 2047 * twoTo 52

/-- A finite floating-point number of sixty-four bits. -/
structure Binary64 where
  /-- Whether the sign bit is set. -/
  negative : Bool
  /-- The eleven bits of the exponent and the fifty-two bits of the fraction. -/
  word : Nat
  /-- The exponent is not the one of infinity. -/
  finite : word < infiniteWord
  deriving DecidableEq

namespace Binary64

/-- Zero, with a sign. -/
def zero (negative : Bool) : Binary64 := ⟨negative, 0, by decide⟩

/-- All sixty-four bits. -/
def bits (x : Binary64) : Nat := (if x.negative then twoTo 63 else 0) + x.word

/-- The number without its sign. -/
def abs (x : Binary64) : Binary64 := { x with negative := false }

/-- The number with another sign. -/
def withSign (x : Binary64) (negative : Bool) : Binary64 := { x with negative := negative }

/-- The whole number that a power of two is multiplied by: the fraction bits, with a leading one
unless the number is among the smallest. -/
def significand (x : Binary64) : Nat :=
  if x.word / twoTo 52 = 0 then x.word else twoTo 52 + x.word % twoTo 52

/-- The power of two, as an exponent, that goes with the significand. -/
def scale (x : Binary64) : Int :=
  if x.word / twoTo 52 = 0 then -1074 else (x.word / twoTo 52 : Nat) - 1075

/-- The size of the number as a quotient. -/
def ratio (x : Binary64) : Nat × Nat :=
  (x.significand * twoTo x.scale.toNat, twoTo (-x.scale).toNat)

/-- Whether the number is zero. -/
def isZero (x : Binary64) : Bool := x.word == 0

/-- The exponent of the grid on which a positive quotient is rounded: fifty-three binary digits, or
fewer near zero. -/
def gridScale (num den : Nat) : Int :=
  let guess := max (-1074) ((num.log2 : Int) - den.log2 - 53)
  if num * twoTo (-guess).toNat / (den * twoTo guess.toNat) < twoTo 53 then guess else guess + 1

/-- The word of the number nearest to a quotient, a half going to the even significand.  Beyond the
largest number it is a word that no finite number has. -/
def nearestWord (num den : Nat) : Nat :=
  if num = 0 then 0
  else
    let q := gridScale num den
    (q + 1074).toNat * twoTo 52 + roundHalfEven (num * twoTo (-q).toNat) (den * twoTo q.toNat)

/-- The number nearest to a quotient, if it is not beyond the largest. -/
def nearest? (negative : Bool) (num den : Nat) : Option Binary64 :=
  if h : nearestWord num den < infiniteWord then some ⟨negative, nearestWord num den, h⟩ else none

/-- The product of two numbers, rounded, if it is not too large. -/
def mul? (x y : Binary64) : Option Binary64 :=
  nearest? (x.negative != y.negative) (x.ratio.1 * y.ratio.1) (x.ratio.2 * y.ratio.2)

/-- The quotient of two numbers, rounded, if it is not too large; the divisor is not zero. -/
def div? (x y : Binary64) : Option Binary64 :=
  nearest? (x.negative != y.negative) (x.ratio.1 * y.ratio.2) (x.ratio.2 * y.ratio.1)

/-- One, two thirds and ten. -/
example : nearestWord 1 1 = 0x3ff0000000000000 ∧ nearestWord 2 3 = 0x3fe5555555555555 ∧
    nearestWord 10 1 = 0x4024000000000000 := by decide

end Binary64

end Shaderworks.Decimal
