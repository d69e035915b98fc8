/-
**Outlines of JSON texts.**

The outline of a text is the tree of values that it spells, as far as it spells any: where the text
breaks off or stops being JSON, the tree has a fault in that place, and nothing after it.  A reader
walks the tree in the order of the text and reports the first thing that it cannot use, be it a
fault or a value of the wrong kind.

An outline keeps what readers treat differently: strings keep their escapes, since an unpaired
surrogate matters only to a reader that wants the string, and numerals keep their digits, since a
number matters only if it is wanted.

Main definitions:

* `Fault` — the two ways in which a text fails to be JSON;
* `Quoted`, `Numeral` — strings and numbers as they are spelled;
* `Node` — outlines;
* `outline` — the outline of a text, and what follows it.
-/

import Shaderworks.Data.Bytes

set_option autoImplicit false

namespace Shaderworks.Json

/-! ### Outlines -/

/-- How a text fails to be JSON. -/
inductive Fault where
  /-- Something stands where it must not. -/
  | malformed
  /-- The text ends too early. -/
  | truncated
  deriving DecidableEq

/-- A piece of a string. -/
inductive Piece where
  /-- A character, plain or escaped by one letter. -/
  | char (c : Char)
  /-- A code unit of sixteen bits, escaped by its four digits. -/
  | codeUnit (value : Nat)
  deriving DecidableEq

/-- A string as it is spelled. -/
structure Quoted where
  /-- The pieces, in order. -/
  pieces : List Piece
  /-- What is wrong after the last piece, if the closing quote does not stand there. -/
  fault : Option Fault
  deriving DecidableEq

/-- A number as it is spelled. -/
structure Numeral where
  /-- Whether a minus sign leads. -/
  negative : Bool
  /-- The digits before the point. -/
  whole : List Char
  /-- The digits after the point, if there is one. -/
  fraction : Option (List Char)
  /-- Whether the exponent has a minus sign, and its digits, if there is one. -/
  exponent : Option (Bool × List Char)
  deriving DecidableEq

/-- How an array or an object ends. -/
inductive Ending where
  /-- With its closing bracket. -/
  | closed
  /-- With a fault where a comma or the bracket should stand. -/
  | stopped (fault : Fault)
  deriving DecidableEq

/-- The outline of a value.  The key of a member is a `Node.text`, unless something else stands in
its place. -/
inductive Node where
  /-- The word for no value. -/
  | null
  /-- A truth value. -/
  | boolean (value : Bool)
  /-- A number. -/
  | number (numeral : Numeral)
  /-- A number that the end of the text cuts off before a digit that it needs. -/
  | cutNumber
  /-- A string. -/
  | text (quoted : Quoted)
  /-- An array. -/
  | array (items : List Node) (ending : Ending)
  /-- An object. -/
  | object (members : List (Node × Node)) (ending : Ending)
  /-- Nothing: the text ends where a value should start. -/
  | absent
  /-- A fault in the place of a value. -/
  | broken (fault : Fault)

/-! ### Strings, numerals and words -/

/-- Whether a character may stand between the parts of a text. -/
def isSpace (c : Char) : Bool := c == ' ' || c == '\n' || c == '\t' || c == '\r'

/-- A text without its leading spaces. -/
def dropSpace (text : List Char) : List Char := text.dropWhile isSpace

/-- The text after a word that it starts with. -/
def scanWord : List Char → List Char → Except Fault (List Char)
  | [], text => .ok text
  | _ :: _, [] => .error .truncated
  | w :: word, c :: text => if w = c then scanWord word text else .error .malformed

/-- The code unit that four digits stand for. -/
def codeUnit? (a b c d : Char) : Option Nat :=
  match Bytes.hexValue? a, Bytes.hexValue? b, Bytes.hexValue? c, Bytes.hexValue? d with
  | some va, some vb, some vc, some vd => some (4096 * va + 256 * vb + 16 * vc + vd)
  | _, _, _, _ => none

/-- What is wrong with fewer than four characters where four digits should stand: the text is cut
off when they are fewer than four bytes, too. -/
def shortCodeUnit (few : List Char) : Fault :=
  if (String.ofList few).utf8ByteSize < 4 then .truncated else .malformed

/-- The character that an escape of one letter stands for. -/
def escaped? (letter : Char) : Option Char :=
  match letter with
  | '"' => some '"'
  | '\\' => some '\\'
  | '/' => some '/'
  | 'b' => some '\x08'
  | 'f' => some '\x0c'
  | 'n' => some '\n'
  | 'r' => some '\r'
  | 't' => some '\t'
  | _ => none

/-- The string whose opening quote stands right before the text, its pieces so far given backwards,
and what follows it. -/
def scanQuoted (before : List Piece) : List Char → Quoted × List Char
  | [] => (⟨before.reverse, some .truncated⟩, [])
  | '"' :: rest => (⟨before.reverse, none⟩, rest)
  | ['\\'] => (⟨before.reverse, some .truncated⟩, [])
  | '\\' :: 'u' :: a :: b :: c :: d :: rest =>
      match codeUnit? a b c d with
      | some value => scanQuoted (.codeUnit value :: before) rest
      | none => (⟨before.reverse, some .malformed⟩, [])
  | '\\' :: 'u' :: few => (⟨before.reverse, some (shortCodeUnit few)⟩, [])
  | '\\' :: letter :: rest =>
      match escaped? letter with
      | some d => scanQuoted (.char d :: before) rest
      | none => (⟨before.reverse, some .malformed⟩, [])
  | c :: rest =>
      if c < ' ' then (⟨before.reverse, some .malformed⟩, [])
      else scanQuoted (.char c :: before) rest

/-- The digits that a text starts with, at least one, and the text after them.  Without a digit the
text is cut off if it ends here. -/
def scanDigits (text : List Char) : Except Fault (List Char × List Char) :=
  match text.takeWhile Char.isDigit, text with
  | [], [] => .error .truncated
  | [], _ :: _ => .error .malformed
  | digits, _ => .ok (digits, text.dropWhile Char.isDigit)

/-- The digits before the point: a zero leads only if it stands alone. -/
def scanWhole (text : List Char) : Except Fault (List Char × List Char) :=
  match scanDigits text with
  | .ok ('0' :: _ :: _, _) => .error .malformed
  | other => other

/-- The point and the digits after it, if there is a point. -/
def scanFraction : List Char → Except Fault (Option (List Char) × List Char)
  | '.' :: text => (scanDigits text).map fun r => (some r.1, r.2)
  | text => .ok (none, text)

/-- The sign and the digits of an exponent. -/
def scanSigned : List Char → Except Fault (Option (Bool × List Char) × List Char)
  | '+' :: text => (scanDigits text).map fun r => (some (false, r.1), r.2)
  | '-' :: text => (scanDigits text).map fun r => (some (true, r.1), r.2)
  | text => (scanDigits text).map fun r => (some (false, r.1), r.2)

/-- The exponent, if there is one. -/
def scanExponent : List Char → Except Fault (Option (Bool × List Char) × List Char)
  | 'e' :: text => scanSigned text
  | 'E' :: text => scanSigned text
  | text => .ok (none, text)

/-- The numeral that a text starts with, after its sign. -/
def scanUnsigned (negative : Bool) (text : List Char) : Except Fault (Numeral × List Char) := do
  let (whole, rest) ← scanWhole text
  let (fraction, rest) ← scanFraction rest
  let (exponent, rest) ← scanExponent rest
  return (⟨negative, whole, fraction, exponent⟩, rest)

/-- The numeral that a text starts with. -/
def scanNumeral : List Char → Except Fault (Numeral × List Char)
  | '-' :: text => scanUnsigned true text
  | text => scanUnsigned false text

/-! ### Values -/

/-- The outline of a word of the language, its first letter taken. -/
def scanKeyword (word : String) (value : Node) (text : List Char) : Node × List Char :=
  match scanWord word.toList text with
  | .ok rest => (value, rest)
  | .error fault => (.broken fault, [])

/-- The outline of a number. -/
def scanNumber (text : List Char) : Node × List Char :=
  match scanNumeral text with
  | .ok (numeral, rest) => (.number numeral, rest)
  | .error .truncated => (.cutNumber, [])
  | .error .malformed => (.broken .malformed, [])

/-- The text after the colon between a key and its value. -/
def scanColon (text : List Char) : Except Node (List Char) :=
  match dropSpace text with
  | [] => .error .absent
  | ':' :: rest => .ok rest
  | _ :: _ => .error (.broken .malformed)

mutual

/-- The outline of the value that a text starts with, and what follows it. -/
def scanNode : Nat → List Char → Node × List Char
  | 0, _ => (.absent, [])
  | fuel + 1, text =>
      match dropSpace text with
      | [] => (.absent, [])
      | 'n' :: rest => scanKeyword "ull" .null rest
      | 't' :: rest => scanKeyword "rue" (.boolean true) rest
      | 'f' :: rest => scanKeyword "alse" (.boolean false) rest
      | '"' :: rest =>
          let (quoted, rest) := scanQuoted [] rest
          (.text quoted, rest)
      | '[' :: rest =>
          let (items, ending, rest) := scanItems fuel true rest
          (.array items ending, rest)
      | '\x7b' :: rest =>
          let (members, ending, rest) := scanMembers fuel true rest
          (.object members ending, rest)
      | c :: rest =>
          if c = '-' || c.isDigit then scanNumber (c :: rest) else (.broken .malformed, [])

/-- The outlines of the items of an array.  Before each but the first stands a comma. -/
def scanItems : Nat → (first : Bool) → List Char → List Node × Ending × List Char
  | 0, _, _ => ([], .stopped .truncated, [])
  | fuel + 1, first, text =>
      match dropSpace text with
      | [] => ([], .stopped .truncated, [])
      | ']' :: rest => ([], .closed, rest)
      | c :: rest =>
          if first || c = ',' then
            let (item, rest) := scanNode fuel (if first then c :: rest else rest)
            let (items, ending, rest) := scanItems fuel false rest
            (item :: items, ending, rest)
          else ([], .stopped .malformed, [])

/-- The outlines of the members of an object.  Before each but the first stands a comma. -/
def scanMembers : Nat → (first : Bool) → List Char → List (Node × Node) × Ending × List Char
  | 0, _, _ => ([], .stopped .truncated, [])
  | fuel + 1, first, text =>
      match dropSpace text with
      | [] => ([], .stopped .truncated, [])
      | '\x7d' :: rest => ([], .closed, rest)
      | c :: rest =>
          if first || c = ',' then
            let (key, rest) := scanNode fuel (if first then c :: rest else rest)
            match key with
            | .text quoted =>
                match quoted.fault, scanColon rest with
                | some _, _ => ([(key, .absent)], .stopped .truncated, [])
                | none, .error fault => ([(key, fault)], .stopped .truncated, [])
                | none, .ok rest =>
                    let (value, rest) := scanNode fuel rest
                    let (members, ending, rest) := scanMembers fuel false rest
                    ((key, value) :: members, ending, rest)
            | _ => ([(key, .absent)], .stopped .truncated, [])
          else ([], .stopped .malformed, [])

end

/-- The outline of the value that a text starts with, and what follows it. -/
def outline (text : List Char) : Node × List Char := scanNode (2 * text.length + 2) text

end Shaderworks.Json
