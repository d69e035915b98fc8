/-
**Texts of archive entries.**

The comment of an archive entry is either in UTF-8 or in the old code page 437, in which every byte
is a character.  Bytes that are not UTF-8 although they should be are shown as replacement
characters.

Main definitions:

* `codePageText` — bytes in code page 437 as a text;
* `lossyText` — bytes in UTF-8 as a text, one replacement character for each broken sequence.
-/

import Shaderworks.Data.Bytes

set_option autoImplicit false

namespace Shaderworks.Archive

/-- The characters of the bytes from 128 on in code page 437. -/
def codePage : List Nat :=
  [0x00C7, 0x00FC, 0x00E9, 0x00E2, 0x00E4, 0x00E0, 0x00E5, 0x00E7,
    0x00EA, 0x00EB, 0x00E8, 0x00EF, 0x00EE, 0x00EC, 0x00C4, 0x00C5,
    0x00C9, 0x00E6, 0x00C6, 0x00F4, 0x00F6, 0x00F2, 0x00FB, 0x00F9,
    0x00FF, 0x00D6, 0x00DC, 0x00A2, 0x00A3, 0x00A5, 0x20A7, 0x0192,
    0x00E1, 0x00ED, 0x00F3, 0x00FA, 0x00F1, 0x00D1, 0x00AA, 0x00BA,
    0x00BF, 0x2310, 0x00AC, 0x00BD, 0x00BC, 0x00A1, 0x00AB, 0x00BB,
    0x2591, 0x2592, 0x2593, 0x2502, 0x2524, 0x2561, 0x2562, 0x2556,
    0x2555, 0x2563, 0x2551, 0x2557, 0x255D, 0x255C, 0x255B, 0x2510,
    0x2514, 0x2534, 0x252C, 0x251C, 0x2500, 0x253C, 0x255E, 0x255F,
    0x255A, 0x2554, 0x2569, 0x2566, 0x2560, 0x2550, 0x256C, 0x2567,
    0x2568, 0x2564, 0x2565, 0x2559, 0x2558, 0x2552, 0x2553, 0x256B,
    0x256A, 0x2518, 0x250C, 0x2588, 0x2584, 0x258C, 0x2590, 0x2580,
    0x03B1, 0x00DF, 0x0393, 0x03C0, 0x03A3, 0x03C3, 0x00B5, 0x03C4,
    0x03A6, 0x0398, 0x03A9, 0x03B4, 0x221E, 0x03C6, 0x03B5, 0x2229,
    0x2261, 0x00B1, 0x2265, 0x2264, 0x2320, 0x2321, 0x00F7, 0x2248,
    0x00B0, 0x2219, 0x00B7, 0x221A, 0x207F, 0x00B2, 0x25A0, 0x00A0]

/-- The character of a byte in code page 437. -/
def codePageChar (byte : UInt8) : Char :=
  if byte < 0x80 then Char.ofNat byte.toNat
  else Char.ofNat (codePage.getD (byte.toNat - 128) 0xFFFD)

/-- Bytes in code page 437 as a text. -/
def codePageText (bytes : Bytes) : String := String.ofList (bytes.map codePageChar)

/-- The bytes that may follow the first one of a sequence, as least and greatest, one pair for each
byte that follows. -/
def following (first : UInt8) : Option (List (UInt8 × UInt8)) :=
  if first < 0x80 then some []
  else if first < 0xC2 then none
  else if first < 0xE0 then some [(0x80, 0xBF)]
  else if first = 0xE0 then some [(0xA0, 0xBF), (0x80, 0xBF)]
  else if first = 0xED then some [(0x80, 0x9F), (0x80, 0xBF)]
  else if first < 0xF0 then some [(0x80, 0xBF), (0x80, 0xBF)]
  else if first = 0xF0 then some [(0x90, 0xBF), (0x80, 0xBF), (0x80, 0xBF)]
  else if first < 0xF4 then some [(0x80, 0xBF), (0x80, 0xBF), (0x80, 0xBF)]
  else if first = 0xF4 then some [(0x80, 0x8F), (0x80, 0xBF), (0x80, 0xBF)]
  else none

/-- How many bytes match the bounds for what follows a first byte, up to the first that does not. -/
def matching : List (UInt8 × UInt8) → Bytes → Nat
  | (low, high) :: bounds, byte :: rest =>
      if low ≤ byte && byte ≤ high then matching bounds rest + 1 else 0
  | _, _ => 0

/-- The characters of bytes in UTF-8; `fuel` bounds their number. -/
def lossyChars : (fuel : Nat) → Bytes → List Char
  | 0, _ => []
  | _, [] => []
  | fuel + 1, first :: rest =>
      match following first with
      | none => '\uFFFD' :: lossyChars fuel rest
      | some bounds =>
          let count := matching bounds rest
          let chars := if count = bounds.length then
              match Bytes.text? (first :: rest.take count) with
              | some text => text.toList
              | none => ['\uFFFD']
            else ['\uFFFD']
          chars ++ lossyChars fuel (rest.drop count)

/-- Bytes in UTF-8 as a text, one replacement character for each broken sequence. -/
def lossyText (bytes : Bytes) : String :=
  match Bytes.text? bytes with
  | some text => text
  | none => String.ofList (lossyChars bytes.length bytes)

end Shaderworks.Archive
