import Chip8.Instruction.Decode
import Chip8.Text.Hex

/-! The assembly text of instructions and of words.

A word that is no instruction is shown as a `DW` directive, so every word has a text.
-/

set_option autoImplicit false

namespace Chip8

def Register.text (r : Register) : String :=
  "V" ++ Text.hex 1 r.val

def Address.text (a : Address) : String :=
  "$" ++ Text.hex 3 a.val

namespace Instruction

def byteText (b : UInt8) : String :=
  "$" ++ Text.hex 2 b.toNat

/-- Mnemonic and operands; every operand is shown. -/
def text : Instruction → String
  | machineCall target => s!"SYS {Address.text target}"
  | clear => "CLS"
  | ret => "RET"
  | jump target => s!"JP {Address.text target}"
  | call target => s!"CALL {Address.text target}"
  | jumpFrom target => s!"JP V0, {Address.text target}"
  | skipIfByte x value => s!"SE {Register.text x}, {byteText value}"
  | skipUnlessByte x value => s!"SNE {Register.text x}, {byteText value}"
  | skipIfSame x y => s!"SE {Register.text x}, {Register.text y}"
  | skipUnlessSame x y => s!"SNE {Register.text x}, {Register.text y}"
  | skipIfDown x => s!"SKP {Register.text x}"
  | skipIfUp x => s!"SKNP {Register.text x}"
  | setByte x value => s!"LD {Register.text x}, {byteText value}"
  | addByte x value => s!"ADD {Register.text x}, {byteText value}"
  | copy x y => s!"LD {Register.text x}, {Register.text y}"
  | or x y => s!"OR {Register.text x}, {Register.text y}"
  | and x y => s!"AND {Register.text x}, {Register.text y}"
  | xor x y => s!"XOR {Register.text x}, {Register.text y}"
  | add x y => s!"ADD {Register.text x}, {Register.text y}"
  | subtract x y => s!"SUB {Register.text x}, {Register.text y}"
  | shiftRight x => s!"SHR {Register.text x}"
  | subtractFrom x y => s!"SUBN {Register.text x}, {Register.text y}"
  | shiftLeft x => s!"SHL {Register.text x}"
  | setIndex target => s!"LD I, {Address.text target}"
  | addIndex x => s!"ADD I, {Register.text x}"
  | indexGlyph x => s!"LD F, {Register.text x}"
  | random x mask => s!"RND {Register.text x}, {byteText mask}"
  | draw x y rows => s!"DRW {Register.text x}, {Register.text y}, {Nat.repr rows.val}"
  | readDelay x => s!"LD {Register.text x}, DT"
  | setDelay x => s!"LD DT, {Register.text x}"
  | setSound x => s!"LD ST, {Register.text x}"
  | awaitKey x => s!"LD {Register.text x}, K"
  | storeDecimal x => s!"LD B, {Register.text x}"
  | storeRegisters x => s!"LD [I], {Register.text x}"
  | loadRegisters x => s!"LD {Register.text x}, [I]"

end Instruction

def Word.text (w : Word) : String :=
  match Instruction.decode w with
  | some instruction => instruction.text
  | none => "DW $" ++ Text.hex 4 w.toNat

end Chip8
