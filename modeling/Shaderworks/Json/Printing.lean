/-
**Writing JSON values.**

Values are written without spaces.  In strings, quotes, backslashes and control characters below the
space are escaped, by one letter where there is one and else by four digits; everything else stands
as it is.

Main definitions:

* `printText` — a string;
* `printValue` — a value;
* `printObject` — an object whose values are printed already.
-/

import Shaderworks.Data.Bytes
import Shaderworks.Json.Value

set_option autoImplicit false

namespace Shaderworks.Json

/-- A character inside a string. -/
def printChar (c : Char) : List Char :=
  match c with
  | '"' => ['\\', '"']
  | '\\' => ['\\', '\\']
  | '\x08' => ['\\', 'b']
  | '\x0c' => ['\\', 'f']
  | '\n' => ['\\', 'n']
  | '\r' => ['\\', 'r']
  | '\t' => ['\\', 't']
  | _ =>
      if c < ' ' then
        ['\\', 'u', '0', '0', Bytes.hexDigit (c.toNat / 16), Bytes.hexDigit (c.toNat % 16)]
      else [c]

/-- A string with its quotes. -/
def printText (text : String) : List Char := '"' :: text.toList.flatMap printChar ++ ['"']

/-- Pieces with commas between them. -/
def commaSeparated (pieces : List (List Char)) : List Char := [','].intercalate pieces

/-- An array of printed items. -/
def printArray (items : List (List Char)) : List Char := '[' :: commaSeparated items ++ [']']

/-- An object of keys and printed values. -/
def printObject (members : List (String × List Char)) : List Char :=
  '\x7b' :: commaSeparated (members.map fun m => printText m.1 ++ ':' :: m.2) ++ ['\x7d']

/-- A truth value. -/
def printBool (value : Bool) : List Char := if value then "true".toList else "false".toList

/-- A string, or the word for no value. -/
def printOptional : Option String → List Char
  | none => "null".toList
  | some text => printText text

mutual

/-- A value. -/
def printValue : Value → List Char
  | .null => "null".toList
  | .boolean value => printBool value
  | .number value => value.text.toList
  | .text value => printText value
  | .array items => printArray (printValues items)
  | .object members => printObject (printMembers members)

/-- The items of an array, each printed. -/
def printValues : List Value → List (List Char)
  | [] => []
  | item :: rest => printValue item :: printValues rest

/-- The members of an object, each value printed. -/
def printMembers : List (String × Value) → List (String × List Char)
  | [] => []
  | (key, value) :: rest => (key, printValue value) :: printMembers rest

end

end Shaderworks.Json
