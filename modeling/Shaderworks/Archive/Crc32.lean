/-
**The CRC-32 checksum.**

Main definitions:

* `crc32` — the checksum of some bytes, with the reflected polynomial `0xedb88320`.
-/

import Shaderworks.Data.Bytes

set_option autoImplicit false

namespace Shaderworks.Archive

/-- Moves the register on by `count` bits. -/
def crcShift : (count : Nat) → UInt32 → UInt32
  | 0, register => register
  | count + 1, register =>
      crcShift count
        (if register &&& 1 = 1 then (register >>> 1) ^^^ 0xedb88320 else register >>> 1)

/-- Moves the register on by a byte. -/
def crcStep (register : UInt32) (byte : UInt8) : UInt32 := crcShift 8 (register ^^^ byte.toUInt32)

/-- The checksum of some bytes. -/
def crc32 (bytes : Bytes) : UInt32 := bytes.foldl crcStep 0xffffffff ^^^ 0xffffffff

end Shaderworks.Archive
