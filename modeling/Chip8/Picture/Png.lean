import Chip8.Picture

/-! PNG files of grayscale pictures.

A file is a signature and three chunks: the header, the rows and an empty end. Each chunk ends with
the CRC-32 of its name and its data. The rows are a zlib stream of stored blocks, so nothing is
compressed.
-/

set_option autoImplicit false

namespace Chip8.Picture

/-- The bytes of a 32-bit number, most significant first. -/
def bigEndian (n : Nat) : List UInt8 :=
  [24, 16, 8, 0].map fun shift => UInt8.ofNat (n >>> shift)

/-- The bytes of a 16-bit number, least significant first. -/
def littleEndian (n : Nat) : List UInt8 :=
  [UInt8.ofNat n, UInt8.ofNat (n / 256)]

/-- The remainder after one more zero bit, over the reflected polynomial of CRC-32. -/
def crcShift (remainder : UInt32) : UInt32 :=
  if remainder &&& 1 = 1 then (remainder >>> 1) ^^^ 0xEDB88320 else remainder >>> 1

/-- The remainder after one more byte. -/
def crcByte (remainder : UInt32) (b : UInt8) : UInt32 :=
  (8 : Nat).repeat crcShift (remainder ^^^ b.toUInt32)

def crc32 (data : List UInt8) : UInt32 :=
  data.foldl crcByte 0xFFFFFFFF ^^^ 0xFFFFFFFF

/-- The Adler-32 checksum of some bytes: their sum and the sum of all partial sums. -/
def adler32 (data : List UInt8) : Nat :=
  let (low, high) := data.foldl
    (fun (low, high) b =>
      let low := (low + b.toNat) % 65521
      (low, (high + low) % 65521))
    (1, 0)
  high * 65536 + low

/-- A chunk with a name of four letters. -/
def chunk (name : String) (data : List UInt8) : List UInt8 :=
  let body := name.toUTF8.toList ++ data
  bigEndian data.length ++ body ++ bigEndian (crc32 body).toNat

/-- The most bytes that a stored block can hold. -/
def blockSize : Nat := 65535

/-- Bytes as stored blocks, of which the last is marked. -/
def storedBlocks (data : List UInt8) : List UInt8 :=
  if data.length ≤ blockSize then
    [1] ++ littleEndian data.length ++ littleEndian (65535 - data.length) ++ data
  else
    -- The second number is the complement of the first.
    [0] ++ littleEndian blockSize ++ littleEndian 0 ++ data.take blockSize ++
      storedBlocks (data.drop blockSize)
termination_by data.length
decreasing_by simp only [List.length_drop, blockSize] at *; omega

/-- A zlib stream that holds bytes as they are. -/
def zlib (data : List UInt8) : List UInt8 :=
  [0x78, 0x01] ++ storedBlocks data ++ bigEndian (adler32 data)

/-- The rows, each behind the mark that it is not filtered. -/
def scanlines (p : Picture) : List UInt8 :=
  (List.range p.height).flatMap fun y => 0 :: p.row y

/-- Size, eight bits of gray, and no interlacing. -/
def header (p : Picture) : List UInt8 :=
  bigEndian p.width ++ bigEndian p.height ++ [8, 0, 0, 0, 0]

def png (p : Picture) : List UInt8 :=
  [0x89, 0x50, 0x4E, 0x47, 0x0D, 0x0A, 0x1A, 0x0A] ++ chunk "IHDR" p.header ++
    chunk "IDAT" (zlib p.scanlines) ++ chunk "IEND" []

end Chip8.Picture
