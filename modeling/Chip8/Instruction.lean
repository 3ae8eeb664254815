import Chip8.Word

/-! The instructions of the machine.

Each instruction carries exactly the operands that it uses, so two words that mean the same decode
to the same instruction.
-/

set_option autoImplicit false

namespace Chip8

inductive Instruction where
  /-- A call into the host's own machine code, which does nothing here. -/
  | machineCall (target : Address)
  | clear
  | ret
  | jump (target : Address)
  | call (target : Address)
  /-- Jump to the target plus register 0. -/
  | jumpFrom (target : Address)
  | skipIfByte (x : Register) (value : UInt8)
  | skipUnlessByte (x : Register) (value : UInt8)
  | skipIfSame (x y : Register)
  | skipUnlessSame (x y : Register)
  | skipIfDown (x : Register)
  | skipIfUp (x : Register)
  | setByte (x : Register) (value : UInt8)
  /-- Add without touching the flag. -/
  | addByte (x : Register) (value : UInt8)
  | copy (x y : Register)
  | or (x y : Register)
  | and (x y : Register)
  | xor (x y : Register)
  | add (x y : Register)
  | subtract (x y : Register)
  | shiftRight (x : Register)
  /-- Subtract `x` from `y` and keep the difference in `y`. -/
  | subtractFrom (x y : Register)
  | shiftLeft (x : Register)
  | setIndex (target : Address)
  | addIndex (x : Register)
  /-- Point the index at the glyph of a digit. -/
  | indexGlyph (x : Register)
  | random (x : Register) (mask : UInt8)
  | draw (x y : Register) (rows : Fin 16)
  | readDelay (x : Register)
  | setDelay (x : Register)
  | setSound (x : Register)
  | awaitKey (x : Register)
  /-- Store the three decimal digits of a register. -/
  | storeDecimal (x : Register)
  | storeRegisters (x : Register)
  | loadRegisters (x : Register)
  deriving DecidableEq, Repr

end Chip8
