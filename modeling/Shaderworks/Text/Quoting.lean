/-
**Quoted texts in reports.**

A report shows a text between double quotes, with escapes for what could not be seen or would be
mistaken for something else.

Main definitions:

* `quoteChar` — a character as it is shown;
* `quote` — a text as it is shown.
-/

import Shaderworks.Text.Visible

set_option autoImplicit false

namespace Shaderworks.Text

/-- A character as a report shows it. -/
def quoteChar (c : Char) : List Char :=
  match c with
  | '\x00' => ['\\', '0']
  | '\t' => ['\\', 't']
  | '\n' => ['\\', 'n']
  | '\r' => ['\\', 'r']
  | '"' => ['\\', '"']
  | '\\' => ['\\', '\\']
  | _ =>
      if isVisible c then [c]
      else ['\\', 'u', '\x7b'] ++ Nat.toDigits 16 c.toNat ++ ['\x7d']

/-- A text as a report shows it. -/
def quote (text : String) : String :=
  String.ofList ('"' :: text.toList.flatMap quoteChar ++ ['"'])

end Shaderworks.Text
