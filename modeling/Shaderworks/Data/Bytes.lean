/-
**Byte strings.**

File contents and bytecode are lists of bytes.  A text is written as its UTF-8 bytes; bytes are read
as a text only when they are the UTF-8 bytes of one.

Main definitions:

* `Bytes` — lists of bytes;
* `Bytes.ofText`, `Bytes.text?` — a text as bytes and back;
* `Bytes.hex`, `Bytes.ofHex?` — two lower-case hexadecimal digits per byte, and back.

Main results:

* `Bytes.text?_ofText` — a text is read back from its bytes;
* `Bytes.ofText_injective` — different texts have different bytes;
* `Bytes.hexDigits_injective` — different byte strings have different digits.
-/

set_option autoImplicit false

namespace Shaderworks

/-- A string of bytes. -/
abbrev Bytes := List UInt8

namespace Bytes

/-! ### Texts -/

/-- The UTF-8 bytes of a text. -/
def ofText (text : String) : Bytes := text.toByteArray.data.toList

/-- The text with these UTF-8 bytes, if there is one. -/
def text? (bytes : Bytes) : Option String := String.fromUTF8? ⟨bytes.toArray⟩

/-- A text is read back from its bytes. -/
theorem text?_ofText (text : String) : text? (ofText text) = some text := by
  have h : (⟨(ofText text).toArray⟩ : ByteArray) = text.toByteArray := by simp [ofText]
  rw [text?, h, String.fromUTF8?, dif_pos text.isValidUTF8]
  rfl

/-- Different texts have different bytes. -/
theorem ofText_injective {s t : String} (h : ofText s = ofText t) : s = t :=
  Option.some.inj ((text?_ofText s).symm.trans (h ▸ text?_ofText t))

/-! ### Hexadecimal digits -/

/-- The lower-case hexadecimal digit of a number below sixteen. -/
def hexDigit (n : Nat) : Char := if n < 10 then Char.ofNat (48 + n) else Char.ofNat (87 + n)

/-- The two digits of every byte. -/
def hexDigits (bytes : Bytes) : List Char :=
  bytes.flatMap fun b => [hexDigit (b.toNat / 16), hexDigit (b.toNat % 16)]

/-- The bytes in hexadecimal digits. -/
def hex (bytes : Bytes) : String := String.ofList (hexDigits bytes)

/-- The value of a hexadecimal digit, small or capital. -/
def hexValue? (c : Char) : Option Nat :=
  if '0' ≤ c && c ≤ '9' then some (c.toNat - 48)
  else if 'a' ≤ c && c ≤ 'f' then some (c.toNat - 87)
  else if 'A' ≤ c && c ≤ 'F' then some (c.toNat - 55)
  else none

/-- The bytes that pairs of digits stand for. -/
def ofHexDigits? : List Char → Option Bytes
  | [] => some []
  | [_] => none
  | hi :: lo :: rest => do
      let h ← hexValue? hi
      let l ← hexValue? lo
      let bytes ← ofHexDigits? rest
      return UInt8.ofNat (16 * h + l) :: bytes

/-- The bytes that a text of hexadecimal digits stands for. -/
def ofHex? (text : String) : Option Bytes := ofHexDigits? text.toList

theorem hexValue?_hexDigit : ∀ n < 16, hexValue? (hexDigit n) = some n := by decide

/-- Bytes are read back from their digits. -/
theorem ofHexDigits?_hexDigits (bytes : Bytes) : ofHexDigits? (hexDigits bytes) = some bytes := by
  induction bytes with
  | nil => rfl
  | cons b rest ih =>
      have hlt : b.toNat < 256 := b.toNat_lt
      have hhi := hexValue?_hexDigit (b.toNat / 16) (by omega)
      have hlo := hexValue?_hexDigit (b.toNat % 16) (by omega)
      have hb : UInt8.ofNat (16 * (b.toNat / 16) + b.toNat % 16) = b := by
        rw [Nat.div_add_mod]
        exact UInt8.ofNat_toNat
      have hsplit : hexDigits (b :: rest) =
          hexDigit (b.toNat / 16) :: hexDigit (b.toNat % 16) :: hexDigits rest := by
        simp [hexDigits]
      rw [hsplit, ofHexDigits?, hhi, hlo, ih]
      exact congrArg (fun c => some (c :: rest)) hb

/-- Different byte strings have different digits. -/
theorem hexDigits_injective {a b : Bytes} (h : hexDigits a = hexDigits b) : a = b :=
  Option.some.inj ((ofHexDigits?_hexDigits a).symm.trans (h ▸ ofHexDigits?_hexDigits b))

/-- Different byte strings have different texts of digits. -/
theorem hex_injective {a b : Bytes} (h : hex a = hex b) : a = b :=
  hexDigits_injective (String.ofList_injective h)

end Bytes

end Shaderworks
