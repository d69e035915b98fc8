/-
**Inflating deflated data.**

Deflated data is a sequence of blocks: stored bytes, or symbols under a prefix code that is fixed or
described in the block.  A symbol is a byte, the end of the block, or the length of a piece to be
repeated; a distance follows that says how far back the piece begins.  One block is marked as the
last one.  Data that ends before it does is corrupt; what follows it is left alone.

Main definitions:

* `bitsOf` — the bits of some bytes, the lowest of each byte first;
* `inflate?` — the inflated bytes, unless the data is corrupt.
-/

import Shaderworks.Archive.PrefixCode
import Shaderworks.Data.Bytes

set_option autoImplicit false

namespace Shaderworks.Archive

/-- The bits of some bytes, the lowest of each byte first. -/
def bitsOf (bytes : Bytes) : List Bool :=
  bytes.flatMap fun b => (List.range 8).map fun i => b.toNat.testBit i

/-- The number that the first `count` bits spell, the lowest first, and the bits after them. -/
def takeBits : (count : Nat) → List Bool → Option (Nat × List Bool)
  | 0, bits => some (0, bits)
  | _ + 1, [] => none
  | count + 1, bit :: bits =>
      (takeBits count bits).map fun r => (2 * r.1 + bit.toNat, r.2)

/-- How far inflating has come: the bits that are left, and what came out. -/
abbrev Progress := List Bool × Array UInt8

/-! ### Symbols -/

/-- Repeats `count` bytes from `distance` bytes before the end, byte by byte. -/
def repeatBack (distance : Nat) : (count : Nat) → Array UInt8 → Option (Array UInt8)
  | 0, out => some out
  | count + 1, out =>
      if out.size < distance then none
      else
        match out[out.size - distance]? with
        | none => none
        | some byte => repeatBack distance count (out.push byte)

/-- The least length of each length symbol, and how many more bits belong to it. -/
def lengthTable : List (Nat × Nat) :=
  [(3, 0), (4, 0), (5, 0), (6, 0), (7, 0), (8, 0), (9, 0), (10, 0), (11, 1), (13, 1), (15, 1),
    (17, 1), (19, 2), (23, 2), (27, 2), (31, 2), (35, 3), (43, 3), (51, 3), (59, 3), (67, 4),
    (83, 4), (99, 4), (115, 4), (131, 5), (163, 5), (195, 5), (227, 5), (258, 0)]

/-- The least distance of each distance symbol, and how many more bits belong to it. -/
def distanceTable : List (Nat × Nat) :=
  [(1, 0), (2, 0), (3, 0), (4, 0), (5, 1), (7, 1), (9, 2), (13, 2), (17, 3), (25, 3), (33, 4),
    (49, 4), (65, 5), (97, 5), (129, 6), (193, 6), (257, 7), (385, 7), (513, 8), (769, 8),
    (1025, 9), (1537, 9), (2049, 10), (3073, 10), (4097, 11), (6145, 11), (8193, 12), (12289, 12),
    (16385, 13), (24577, 13)]

/-- The symbol that ends a block. -/
def endOfBlock : Nat := 256

/-- Repeats a piece: its length is given by a symbol and some bits, its distance by another. -/
def repeatPiece? (distances : CodeTree) (symbol : Nat) (bits : List Bool) (out : Array UInt8) :
    Option Progress := do
  let (length, more) ← lengthTable[symbol - 257]?
  let (longer, bits) ← takeBits more bits
  let (symbol, bits) ← distances.decode? bits
  let (distance, more) ← distanceTable[symbol]?
  let (further, bits) ← takeBits more bits
  let out ← repeatBack (distance + further) (length + longer) out
  return (bits, out)

/-- Inflates symbols up to the end of the block; `fuel` bounds their number. -/
def inflateSymbols? (literals distances : CodeTree) :
    (fuel : Nat) → List Bool → Array UInt8 → Option Progress
  | 0, _, _ => none
  | fuel + 1, bits, out =>
      match literals.decode? bits with
      | none => none
      | some (symbol, bits) =>
          if symbol < endOfBlock then
            inflateSymbols? literals distances fuel bits (out.push (UInt8.ofNat symbol))
          else if symbol = endOfBlock then some (bits, out)
          else
            match repeatPiece? distances symbol bits out with
            | none => none
            | some (bits, out) => inflateSymbols? literals distances fuel bits out

/-- The lengths of the fixed code of bytes and lengths. -/
def fixedLiteralLengths : List Nat :=
  List.replicate 144 8 ++ List.replicate 112 9 ++ List.replicate 24 7 ++ List.replicate 8 8

/-- The lengths of the fixed code of distances. -/
def fixedDistanceLengths : List Nat := List.replicate 32 5

/-! ### Described codes -/

/-- The order in which the lengths of the code of lengths are given. -/
def lengthOrder : List Nat := [16, 17, 18, 0, 8, 7, 9, 6, 10, 5, 11, 4, 12, 3, 13, 2, 14, 1, 15]

/-- Reads numbers of three bits. -/
def readTriples : (count : Nat) → List Bool → Option (List Nat × List Bool)
  | 0, bits => some ([], bits)
  | count + 1, bits => do
      let (n, bits) ← takeBits 3 bits
      let (ns, bits) ← readTriples count bits
      return (n :: ns, bits)

/-- Reads `count` code lengths under a code of lengths, in which some symbols repeat a length.  The
lengths so far are given backwards; `fuel` bounds the number of symbols. -/
def readLengths? (code : CodeTree) (count : Nat) :
    (fuel : Nat) → List Bool → List Nat → Option (List Nat × List Bool)
  | 0, _, _ => none
  | fuel + 1, bits, before =>
      if before.length = count then some (before.reverse, bits)
      else if count < before.length then none
      else
        match code.decode? bits with
        | none => none
        | some (symbol, bits) =>
            if symbol < 16 then readLengths? code count fuel bits (symbol :: before)
            else
              let (extra, least) :=
                if symbol = 16 then (2, 3) else if symbol = 17 then (3, 3) else (7, 11)
              match takeBits extra bits with
              | none => none
              | some (more, bits) =>
                  if symbol = 16 then
                    match before with
                    | [] => none
                    | last :: _ =>
                        readLengths? code count fuel bits
                          (List.replicate (least + more) last ++ before)
                  else readLengths? code count fuel bits (List.replicate (least + more) 0 ++ before)

/-- Reads the two codes that a block describes. -/
def readCodes? (bits : List Bool) : Option ((CodeTree × CodeTree) × List Bool) := do
  let (counts, bits) ← takeBits 14 bits
  let literalCount := counts % 32 + 257
  let distanceCount := counts / 32 % 32 + 1
  let lengthCount := counts / 1024 + 4
  if 286 < literalCount ∨ 30 < distanceCount then none
  let (triples, bits) ← readTriples lengthCount bits
  let given := lengthOrder.zip triples
  let code ← CodeTree.ofLengths? false
    ((List.range 19).map fun symbol => (given.lookup symbol).getD 0)
  let (lengths, bits) ←
    readLengths? code (literalCount + distanceCount) (bits.length + 2) bits []
  if lengths[endOfBlock]? = some 0 then none
  let literals ← CodeTree.ofLengths? true (lengths.take literalCount)
  let distances ← CodeTree.ofLengths? true (lengths.drop literalCount)
  return ((literals, distances), bits)

/-! ### Blocks -/

/-- Takes `count` whole bytes. -/
def takeBytes? : (count : Nat) → List Bool → Array UInt8 → Option Progress
  | 0, bits, out => some (bits, out)
  | count + 1, bits, out =>
      match takeBits 8 bits with
      | none => none
      | some (byte, bits) => takeBytes? count bits (out.push (UInt8.ofNat byte))

/-- Takes the stored bytes of a block; the block goes on at the next whole byte.  Their number is
given twice, the second time with all bits turned over. -/
def inflateStored? (bits : List Bool) (out : Array UInt8) : Option Progress := do
  let (lengths, bits) ← takeBits 32 (bits.drop (bits.length % 8))
  if lengths % 65536 + lengths / 65536 = 65535 then takeBytes? (lengths % 65536) bits out
  else none

/-- Inflates a block whose kind is given. -/
def inflateBlock? (kind : Nat) (bits : List Bool) (out : Array UInt8) : Option Progress :=
  match kind with
  | 0 => inflateStored? bits out
  | 1 => do
      let literals ← CodeTree.ofLengths? false fixedLiteralLengths
      let distances ← CodeTree.ofLengths? false fixedDistanceLengths
      inflateSymbols? literals distances (bits.length + 1) bits out
  | 2 => do
      let ((literals, distances), bits) ← readCodes? bits
      inflateSymbols? literals distances (bits.length + 1) bits out
  | _ => none

/-- Inflates blocks up to the last one; `fuel` bounds their number. -/
def inflateBlocks? : (fuel : Nat) → List Bool → Array UInt8 → Option (Array UInt8)
  | 0, _, _ => none
  | fuel + 1, bits, out =>
      match takeBits 3 bits with
      | none => none
      | some (header, bits) =>
          match inflateBlock? (header / 2) bits out with
          | none => none
          | some (bits, out) =>
              if header % 2 = 1 then some out else inflateBlocks? fuel bits out

/-- The inflated bytes, unless the data is corrupt. -/
def inflate? (bytes : Bytes) : Option Bytes :=
  let bits := bitsOf bytes
  (inflateBlocks? (bits.length + 1) bits #[]).map Array.toList

end Shaderworks.Archive
