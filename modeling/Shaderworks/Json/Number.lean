/-
**Numbers of JSON texts.**

A numeral without point and exponent is a whole number as long as it fits sixty-four bits, with or
without sign; minus zero and everything else is a floating-point number.  The digits of the latter
are collected into a whole number of sixty-four bits, as far as it goes; that number, rounded, is
then multiplied or divided by a power of ten, rounded once more.

Main definitions:

* `Number` — whole numbers and floating-point numbers;
* `Numeral.value?` — the number that a numeral spells, unless it is too large;
* `Number.text` — the number as it is written.

Main results:

* `wholePart_of_le` — a numeral that fits is collected in full.
-/

import Shaderworks.Decimal.Shortest
import Shaderworks.Json.Outline

set_option autoImplicit false

namespace Shaderworks.Json

open Decimal

/-- A number of a JSON text. -/
inductive Number where
  /-- A whole number. -/
  | integer (value : Int)
  /-- A floating-point number. -/
  | real (value : Binary64)
  deriving DecidableEq

/-- How floating-point numbers are written: positionally from `0.00001` up to sixteen digits before
the point, else with a signed exponent. -/
def numberStyle : NumberStyle := ⟨-5, 15, "+"⟩

/-- The number as it is written. -/
def Number.text : Number → String
  | integer value => toString value
  | real value => numberStyle.render value

/-! ### Collecting digits -/

/-- The greatest whole number of sixty-four bits. -/
def maxCollected : Nat := twoTo 64 - 1

/-- The value of a decimal digit. -/
def digitValue (c : Char) : Nat := c.toNat - 48

/-- Appends digits to a whole number as far as it goes; the second number counts the digits left
over. -/
def wholePart (sum : Nat) : List Char → Nat × Nat
  | [] => (sum, 0)
  | d :: rest =>
      if maxCollected < 10 * sum + digitValue d then (sum, rest.length + 1)
      else wholePart (10 * sum + digitValue d) rest

/-- Appends digits to a whole number as far as it goes; the second number counts the digits
taken. -/
def fractionPart (sum : Nat) : List Char → Nat × Nat
  | [] => (sum, 0)
  | d :: rest =>
      if maxCollected < 10 * sum + digitValue d then (sum, 0)
      else
        let (total, taken) := fractionPart (10 * sum + digitValue d) rest
        (total, taken + 1)

/-- The whole number that digits spell. -/
def digitsValue (digits : List Char) : Nat :=
  digits.foldl (fun sum d => 10 * sum + digitValue d) 0

theorem le_foldl_digits (digits : List Char) (sum : Nat) :
    sum ≤ digits.foldl (fun sum d => 10 * sum + digitValue d) sum := by
  induction digits generalizing sum with
  | nil => exact Nat.le_refl _
  | cons d rest ih =>
      refine Nat.le_trans ?_ (ih (10 * sum + digitValue d))
      omega

/-- A numeral that fits is collected in full. -/
theorem wholePart_of_le {digits : List Char} {sum : Nat}
    (h : digits.foldl (fun sum d => 10 * sum + digitValue d) sum ≤ maxCollected) :
    wholePart sum digits = (digits.foldl (fun sum d => 10 * sum + digitValue d) sum, 0) := by
  induction digits generalizing sum with
  | nil => rfl
  | cons d rest ih =>
      have hle : 10 * sum + digitValue d ≤ maxCollected := Nat.le_trans (le_foldl_digits rest _) h
      rw [wholePart, if_neg (Nat.not_lt.2 hle), ih h]
      rfl

/-! ### Scaling -/

/-- A power of ten, rounded. -/
def powerOfTen (n : Nat) : Binary64 :=
  (Binary64.nearest? false (tenTo n) 1).getD (Binary64.zero false)

/-- The greatest power of ten that is not too large. -/
def maxPower : Nat := 308

/-- A number times a power of ten, unless it is too large.  Greater divisors than the greatest power
are taken in steps, until nothing is left; `steps` bounds their number. -/
def scaled? : (steps : Nat) → Binary64 → Int → Option Binary64
  | 0, x, _ => some x
  | steps + 1, x, exponent =>
      if exponent.natAbs ≤ maxPower then
        if 0 ≤ exponent then x.mul? (powerOfTen exponent.toNat)
        else x.div? (powerOfTen (-exponent).toNat)
      else if x.isZero then some x
      else if 0 ≤ exponent then none
      else ((x.div? (powerOfTen maxPower)).bind fun y => scaled? steps y (exponent + maxPower))

/-- A whole number of sixty-four bits times a power of ten, with a sign. -/
def realOf? (negative : Bool) (collected : Nat) (exponent : Int) : Option Number :=
  (Binary64.nearest? false collected 1).bind fun x =>
    (scaled? 4 x exponent).map fun y => .real (y.withSign negative)

/-- The exponent that a numeral spells. -/
def Numeral.exponentValue (numeral : Numeral) : Int :=
  match numeral.exponent with
  | none => 0
  | some (true, digits) => -digitsValue digits
  | some (false, digits) => digitsValue digits

/-- A whole numeral that fits: minus zero is no whole number, and a negative one has sixty-three
bits. -/
def wholeOf? (negative : Bool) (collected : Nat) : Option Number :=
  if negative then
    if collected = 0 ∨ twoTo 63 < collected then realOf? true collected 0
    else some (.integer (-collected))
  else some (.integer collected)

/-- The number that a numeral spells, unless it is too large. -/
def Numeral.value? (numeral : Numeral) : Option Number :=
  let (whole, left) := wholePart 0 numeral.whole
  match numeral.fraction, numeral.exponent with
  | none, none =>
      if left = 0 then wholeOf? numeral.negative whole else realOf? numeral.negative whole left
  | none, some _ => realOf? numeral.negative whole (left + numeral.exponentValue)
  | some digits, _ =>
      let (collected, taken) := fractionPart whole digits
      realOf? numeral.negative collected (left - taken + numeral.exponentValue)

end Shaderworks.Json
