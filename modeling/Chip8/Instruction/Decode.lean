import Chip8.Instruction

/-! Decoding of instruction words.

The family selects an instruction or, for families 0, 8, E and F, a table on the low bits. Bits
that a family does not look at are ignored.
-/

set_option autoImplicit false

namespace Chip8.Instruction

/-- Family 0 is selected by its low byte alone. -/
def decodeSystem (w : Word) : Option Instruction :=
  match w.byte.toNat with
  | 0x00 => some (.machineCall w.address)
  | 0xE0 => some .clear
  | 0xEE => some .ret
  | _ => none

/-- Family 8 computes on registers. -/
def decodeArithmetic (w : Word) : Option Instruction :=
  match w.nibble.val with
  | 0x0 => some (.copy w.x w.y)
  | 0x1 => some (.or w.x w.y)
  | 0x2 => some (.and w.x w.y)
  | 0x3 => some (.xor w.x w.y)
  | 0x4 => some (.add w.x w.y)
  | 0x5 => some (.subtract w.x w.y)
  | 0x6 => some (.shiftRight w.x)
  | 0x7 => some (.subtractFrom w.x w.y)
  | 0xE => some (.shiftLeft w.x)
  | _ => none

/-- Family E tests keys. -/
def decodeKey (w : Word) : Option Instruction :=
  match w.byte.toNat with
  | 0x9E => some (.skipIfDown w.x)
  | 0xA1 => some (.skipIfUp w.x)
  | _ => none

/-- Family F, the last one, holds timers, the key wait, the index and memory transfers. -/
def decodeTransfer (w : Word) : Option Instruction :=
  match w.byte.toNat with
  | 0x07 => some (.readDelay w.x)
  | 0x0A => some (.awaitKey w.x)
  | 0x15 => some (.setDelay w.x)
  | 0x18 => some (.setSound w.x)
  | 0x1E => some (.addIndex w.x)
  | 0x29 => some (.indexGlyph w.x)
  | 0x33 => some (.storeDecimal w.x)
  | 0x55 => some (.storeRegisters w.x)
  | 0x65 => some (.loadRegisters w.x)
  | _ => none

def decode (w : Word) : Option Instruction :=
  match w.family.val with
  | 0x0 => decodeSystem w
  | 0x1 => some (.jump w.address)
  | 0x2 => some (.call w.address)
  | 0x3 => some (.skipIfByte w.x w.byte)
  | 0x4 => some (.skipUnlessByte w.x w.byte)
  | 0x5 => some (.skipIfSame w.x w.y)
  | 0x6 => some (.setByte w.x w.byte)
  | 0x7 => some (.addByte w.x w.byte)
  | 0x8 => decodeArithmetic w
  | 0x9 => some (.skipUnlessSame w.x w.y)
  | 0xA => some (.setIndex w.address)
  | 0xB => some (.jumpFrom w.address)
  | 0xC => some (.random w.x w.byte)
  | 0xD => some (.draw w.x w.y w.nibble)
  | 0xE => decodeKey w
  | _ => decodeTransfer w

end Chip8.Instruction
