import Mathlib.Tactic.IntervalCases
import Chip8.Instruction.Text

/-! Instructions as records.

A record has the operation of a word beside all the fields that any operation might use. An operation
uses some of them, and the typed instruction keeps these and no others. A typed instruction and a word
give a record again, so that every instruction can be looked at in either way.
-/

set_option autoImplicit false

namespace Chip8

inductive Op where
  | machineCall
  | clear
  | ret
  | jump
  | call
  | jumpFrom
  | skipIfByte
  | skipUnlessByte
  | skipIfSame
  | skipUnlessSame
  | skipIfDown
  | skipIfUp
  | setByte
  | addByte
  | copy
  | or
  | and
  | xor
  | add
  | subtract
  | shiftRight
  | subtractFrom
  | shiftLeft
  | setIndex
  | addIndex
  | indexGlyph
  | random
  | draw
  | readDelay
  | setDelay
  | setSound
  | awaitKey
  | storeDecimal
  | storeRegisters
  | loadRegisters
  deriving DecidableEq, Repr

/-! ### The operation of a word -/

namespace Op

def familyOps : List (Nat × Op) := [
  (0x1, jump), (0x2, call), (0x3, skipIfByte), (0x4, skipUnlessByte), (0x5, skipIfSame),
  (0x6, setByte), (0x7, addByte), (0x9, skipUnlessSame), (0xA, setIndex), (0xB, jumpFrom),
  (0xC, random), (0xD, draw)]

def arithmeticOps : List (Nat × Op) := [
  (0x0, copy), (0x1, or), (0x2, and), (0x3, xor), (0x4, add), (0x5, subtract), (0x6, shiftRight),
  (0x7, subtractFrom), (0xE, shiftLeft)]

def keyOps : List (Nat × Op) := [(0x9E, skipIfDown), (0xA1, skipIfUp)]

def transferOps : List (Nat × Op) := [
  (0x07, readDelay), (0x0A, awaitKey), (0x15, setDelay), (0x18, setSound), (0x1E, addIndex),
  (0x29, indexGlyph), (0x33, storeDecimal), (0x55, storeRegisters), (0x65, loadRegisters)]

def ofSystem? (w : Word) : Option Op :=
  match w.byte.toNat with
  | 0x00 => some machineCall
  | 0xE0 => some clear
  | 0xEE => some ret
  | _ => none

def ofWord? (w : Word) : Option Op :=
  match w.family.val with
  | 0x0 => ofSystem? w
  | 0x8 => arithmeticOps.lookup w.nibble.val
  | 0xE => keyOps.lookup w.byte.toNat
  | 0xF => transferOps.lookup w.byte.toNat
  | family => familyOps.lookup family

end Op

/-! ### Records -/

structure Record where
  op : Op
  opcode : Word
  addr : Address
  x : Register
  y : Register
  kk : UInt8
  n : Fin 16
  deriving DecidableEq, Repr

namespace Record

def ofOp (op : Op) (w : Word) : Record :=
  ⟨op, w, w.address, w.x, w.y, w.byte, w.nibble⟩

def decode (w : Word) : Option Record :=
  (Op.ofWord? w).map (ofOp · w)

def typed (r : Record) : Instruction :=
  match r.op with
  | .machineCall => .machineCall r.addr
  | .clear => .clear
  | .ret => .ret
  | .jump => .jump r.addr
  | .call => .call r.addr
  | .jumpFrom => .jumpFrom r.addr
  | .skipIfByte => .skipIfByte r.x r.kk
  | .skipUnlessByte => .skipUnlessByte r.x r.kk
  | .skipIfSame => .skipIfSame r.x r.y
  | .skipUnlessSame => .skipUnlessSame r.x r.y
  | .skipIfDown => .skipIfDown r.x
  | .skipIfUp => .skipIfUp r.x
  | .setByte => .setByte r.x r.kk
  | .addByte => .addByte r.x r.kk
  | .copy => .copy r.x r.y
  | .or => .or r.x r.y
  | .and => .and r.x r.y
  | .xor => .xor r.x r.y
  | .add => .add r.x r.y
  | .subtract => .subtract r.x r.y
  | .shiftRight => .shiftRight r.x
  | .subtractFrom => .subtractFrom r.x r.y
  | .shiftLeft => .shiftLeft r.x
  | .setIndex => .setIndex r.addr
  | .addIndex => .addIndex r.x
  | .indexGlyph => .indexGlyph r.x
  | .random => .random r.x r.kk
  | .draw => .draw r.x r.y r.n
  | .readDelay => .readDelay r.x
  | .setDelay => .setDelay r.x
  | .setSound => .setSound r.x
  | .awaitKey => .awaitKey r.x
  | .storeDecimal => .storeDecimal r.x
  | .storeRegisters => .storeRegisters r.x
  | .loadRegisters => .loadRegisters r.x

def text (r : Record) : String :=
  let x := "V" ++ Text.hex 1 r.x.val
  let y := "V" ++ Text.hex 1 r.y.val
  let addr := "$" ++ Text.hex 3 r.addr.val
  let kk := "$" ++ Text.hex 2 r.kk.toNat
  match r.op with
  | .machineCall => s!"SYS {addr}"
  | .clear => "CLS"
  | .ret => "RET"
  | .jump => s!"JP {addr}"
  | .call => s!"CALL {addr}"
  | .jumpFrom => s!"JP V0, {addr}"
  | .skipIfByte => s!"SE {x}, {kk}"
  | .skipUnlessByte => s!"SNE {x}, {kk}"
  | .skipIfSame => s!"SE {x}, {y}"
  | .skipUnlessSame => s!"SNE {x}, {y}"
  | .skipIfDown => s!"SKP {x}"
  | .skipIfUp => s!"SKNP {x}"
  | .setByte => s!"LD {x}, {kk}"
  | .addByte => s!"ADD {x}, {kk}"
  | .copy => s!"LD {x}, {y}"
  | .or => s!"OR {x}, {y}"
  | .and => s!"AND {x}, {y}"
  | .xor => s!"XOR {x}, {y}"
  | .add => s!"ADD {x}, {y}"
  | .subtract => s!"SUB {x}, {y}"
  | .shiftRight => s!"SHR {x}"
  | .subtractFrom => s!"SUBN {x}, {y}"
  | .shiftLeft => s!"SHL {x}"
  | .setIndex => s!"LD I, {addr}"
  | .addIndex => s!"ADD I, {x}"
  | .indexGlyph => s!"LD F, {x}"
  | .random => s!"RND {x}, {kk}"
  | .draw => s!"DRW {x}, {y}, {Nat.repr r.n.val}"
  | .readDelay => s!"LD {x}, DT"
  | .setDelay => s!"LD DT, {x}"
  | .setSound => s!"LD ST, {x}"
  | .awaitKey => s!"LD {x}, K"
  | .storeDecimal => s!"LD B, {x}"
  | .storeRegisters => s!"LD [I], {x}"
  | .loadRegisters => s!"LD {x}, [I]"

theorem text_typed (r : Record) : r.typed.text = r.text := by
  obtain ⟨op, opcode, addr, x, y, kk, n⟩ := r
  cases op <;> rfl

end Record

/-! ### Records of typed instructions -/

/-- The record of an instruction; fields that it does not use come from a word. -/
def Instruction.record (w : Word) : Instruction → Record
  | machineCall target => { Record.ofOp .machineCall w with addr := target }
  | clear => .ofOp .clear w
  | ret => .ofOp .ret w
  | jump target => { Record.ofOp .jump w with addr := target }
  | call target => { Record.ofOp .call w with addr := target }
  | jumpFrom target => { Record.ofOp .jumpFrom w with addr := target }
  | skipIfByte x kk => { Record.ofOp .skipIfByte w with x, kk }
  | skipUnlessByte x kk => { Record.ofOp .skipUnlessByte w with x, kk }
  | skipIfSame x y => { Record.ofOp .skipIfSame w with x, y }
  | skipUnlessSame x y => { Record.ofOp .skipUnlessSame w with x, y }
  | skipIfDown x => { Record.ofOp .skipIfDown w with x }
  | skipIfUp x => { Record.ofOp .skipIfUp w with x }
  | setByte x kk => { Record.ofOp .setByte w with x, kk }
  | addByte x kk => { Record.ofOp .addByte w with x, kk }
  | copy x y => { Record.ofOp .copy w with x, y }
  | or x y => { Record.ofOp .or w with x, y }
  | and x y => { Record.ofOp .and w with x, y }
  | xor x y => { Record.ofOp .xor w with x, y }
  | add x y => { Record.ofOp .add w with x, y }
  | subtract x y => { Record.ofOp .subtract w with x, y }
  | shiftRight x => { Record.ofOp .shiftRight w with x }
  | subtractFrom x y => { Record.ofOp .subtractFrom w with x, y }
  | shiftLeft x => { Record.ofOp .shiftLeft w with x }
  | setIndex target => { Record.ofOp .setIndex w with addr := target }
  | addIndex x => { Record.ofOp .addIndex w with x }
  | indexGlyph x => { Record.ofOp .indexGlyph w with x }
  | random x kk => { Record.ofOp .random w with x, kk }
  | draw x y n => { Record.ofOp .draw w with x, y, n }
  | readDelay x => { Record.ofOp .readDelay w with x }
  | setDelay x => { Record.ofOp .setDelay w with x }
  | setSound x => { Record.ofOp .setSound w with x }
  | awaitKey x => { Record.ofOp .awaitKey w with x }
  | storeDecimal x => { Record.ofOp .storeDecimal w with x }
  | storeRegisters x => { Record.ofOp .storeRegisters w with x }
  | loadRegisters x => { Record.ofOp .loadRegisters w with x }

variable {w : Word}

@[simp] theorem Instruction.typed_record (i : Instruction) : (i.record w).typed = i := by
  cases i <;> rfl

@[simp] theorem Instruction.opcode_record (i : Instruction) : (i.record w).opcode = w := by
  cases i <;> rfl

/-- An operation that has the fields of a word is the record of its instruction. -/
theorem Record.record_typed (op : Op) (w : Word) : (ofOp op w).typed.record w = ofOp op w := by
  cases op <;> rfl

/-! ### Decoding -/

namespace Record

theorem decodeSystem_eq (w : Word) :
    Instruction.decodeSystem w = (Op.ofSystem? w).map fun op => (ofOp op w).typed := by
  unfold Instruction.decodeSystem Op.ofSystem?
  generalize w.byte.toNat = n
  split <;> simp_all [typed, ofOp]

theorem decodeArithmetic_eq (w : Word) : Instruction.decodeArithmetic w =
    (Op.arithmeticOps.lookup w.nibble.val).map fun op => (ofOp op w).typed := by
  unfold Instruction.decodeArithmetic
  generalize w.nibble.val = n
  split
  case h_10 =>
    have unlisted : Op.arithmeticOps.lookup n = none := by
      simp only [List.lookup_eq_none_iff, Op.arithmeticOps, List.forall_mem_cons, bne_iff_ne]
      simp_all
    rw [unlisted, Option.map_none]
  all_goals rfl

theorem decodeKey_eq (w : Word) : Instruction.decodeKey w =
    (Op.keyOps.lookup w.byte.toNat).map fun op => (ofOp op w).typed := by
  unfold Instruction.decodeKey
  generalize w.byte.toNat = n
  split
  case h_3 =>
    have unlisted : Op.keyOps.lookup n = none := by
      simp only [List.lookup_eq_none_iff, Op.keyOps, List.forall_mem_cons, bne_iff_ne]
      simp_all
    rw [unlisted, Option.map_none]
  all_goals rfl

theorem decodeTransfer_eq (w : Word) : Instruction.decodeTransfer w =
    (Op.transferOps.lookup w.byte.toNat).map fun op => (ofOp op w).typed := by
  unfold Instruction.decodeTransfer
  generalize w.byte.toNat = n
  split
  case h_10 =>
    have unlisted : Op.transferOps.lookup n = none := by
      simp only [List.lookup_eq_none_iff, Op.transferOps, List.forall_mem_cons, bne_iff_ne]
      simp_all
    rw [unlisted, Option.map_none]
  all_goals rfl

/-- Decoding a word gives the instruction of its record. -/
theorem typed_decode (w : Word) : Instruction.decode w = (decode w).map typed := by
  unfold Instruction.decode decode Op.ofWord?
  rw [Option.map_map]
  have below := w.family.isLt
  generalize w.family.val = family at below
  interval_cases family
  case «0» => exact decodeSystem_eq w
  case «8» => exact decodeArithmetic_eq w
  case «14» => exact decodeKey_eq w
  case «15» => exact decodeTransfer_eq w
  all_goals rfl

theorem decode_eq_some_iff {i : Instruction} :
    decode w = some (i.record w) ↔ Instruction.decode w = some i := by
  rw [typed_decode]
  constructor
  · intro found
    rw [found, Option.map_some, Instruction.typed_record]
  · intro found
    obtain ⟨r, known, rfl⟩ := Option.map_eq_some_iff.1 found
    obtain ⟨op, -, rfl⟩ := Option.map_eq_some_iff.1 known
    rw [known, record_typed]

end Record

end Chip8
