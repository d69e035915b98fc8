/-
**Causes of a failure.**

What a host reports when it cannot compile, convert or build: a message, and behind it the messages
of what caused it, outermost first.

Main definitions:

* `Cause` — a chain of messages that is never empty;
* `Cause.text` — the chain on one line.
-/

set_option autoImplicit false

namespace Shaderworks

/-- A message and the messages of what lies behind it, outermost first. -/
structure Cause where
  /-- The outermost message. -/
  message : String
  /-- The messages behind it, outermost first. -/
  behind : List String := []
  deriving DecidableEq

/-- The chain on one line, outermost message first. -/
def Cause.text (cause : Cause) : String := ": ".intercalate (cause.message :: cause.behind)

end Shaderworks
