/-
**Powers of two and of ten.**

The scales of binary and of decimal notation, as whole numbers.

Main definitions:

* `twoTo`, `tenTo` — the powers.
-/

set_option autoImplicit false

namespace Shaderworks.Decimal

/-- Two to the power of `n`. -/
def twoTo (n : Nat) : Nat := Nat.pow 2 n

/-- Ten to the power of `n`. -/
def tenTo (n : Nat) : Nat := Nat.pow 10 n

end Shaderworks.Decimal
