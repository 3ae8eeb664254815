import Chip8.Glyphs
import Chip8.Instruction
import Chip8.Keypad
import Chip8.Memory
import Chip8.Processor
import Chip8.Random
import Chip8.Screen

/-! The machine that a program sees, and the effect of each instruction on it.

An instruction either fails or leaves a machine and reports the bytes that it stored. What can fail is
checked before the first effect, so a failure has nothing to undo.
-/

set_option autoImplicit false

namespace Chip8

structure Machine (size : Nat) where
  processor : Processor
  memory : Memory size
  screen : Screen
  keypad : Keypad
  random : Random
  deriving DecidableEq

structure Store where
  address : Nat
  value : UInt8
  deriving DecidableEq, Repr

def Store.range (start : Nat) : List UInt8 → List Store
  | [] => []
  | b :: data => ⟨start, b⟩ :: range (start + 1) data

/-- What an instruction does: it fails, or leaves a machine and the stores it made, in order. -/
abbrev Effect (size : Nat) := Except Cause (Machine size × List Store)

namespace Machine

variable {size : Nat}

def onProcessor (m : Machine size) (change : Processor → Processor) : Effect size :=
  .ok ({ m with processor := change m.processor }, [])

def ret (m : Machine size) : Effect size :=
  match m.processor.stack with
  | [] => .error .stackUnderflow
  | pc :: stack => m.onProcessor ({ · with pc, stack })

/-- Draw rows of memory from the index on at the place given by two registers; the flag is the
collision. -/
def draw (x y : Register) (rows : Fin 16) : Machine size → Effect size
  | ⟨p, memory, screen, keypad, random⟩ =>
    match memory.readRange p.index.toNat rows.val with
    | .error access => .error (.addressOutOfRange access)
    | .ok (data, memory) =>
      let (collision, screen) :=
        screen.draw (p.get x).toNat (p.get y).toNat (data.flatMap Screen.rowBits)
      .ok (⟨p.setFlag collision, memory, screen, keypad, random⟩, [])

def storeAtIndex (data : List UInt8) : Machine size → Effect size
  | ⟨p, memory, screen, keypad, random⟩ =>
    match memory.writeRange p.index.toNat data with
    | .error access => .error (.addressOutOfRange access)
    | .ok memory => .ok (⟨p, memory, screen, keypad, random⟩, Store.range p.index.toNat data)

/-- Load registers 0 to `x` from the index on. -/
def loadRegisters (x : Register) : Machine size → Effect size
  | ⟨p, memory, screen, keypad, random⟩ =>
    match memory.readRange p.index.toNat (x.val + 1) with
    | .error access => .error (.addressOutOfRange access)
    | .ok (data, memory) => .ok (⟨p.setFirst data, memory, screen, keypad, random⟩, [])

/-- Draw a random byte, also if the mask leaves nothing of it. -/
def drawRandom (x : Register) (mask : UInt8) : Machine size → Effect size
  | ⟨p, memory, screen, keypad, random⟩ =>
    -- The byte is drawn first, whatever the mask.
    let (b, random) := random.byte
    .ok (⟨p.set x (b &&& mask), memory, screen, keypad, random⟩, [])

/-- The effect of an instruction, with the program counter already past it. -/
def execute (i : Instruction) (m : Machine size) : Effect size :=
  match i with
  | .machineCall _ => .ok (m, [])
  | .clear => .ok ({ m with screen := m.screen.clear }, [])
  | .ret => m.ret
  | .jump target => m.onProcessor ({ · with pc := target.val })
  | .call target => m.onProcessor (·.call target)
  | .jumpFrom target => m.onProcessor fun p => { p with pc := target.val + (p.get .first).toNat }
  | .skipIfByte x value => m.onProcessor fun p => p.skipIf (p.get x == value)
  | .skipUnlessByte x value => m.onProcessor fun p => p.skipIf (p.get x != value)
  | .skipIfSame x y => m.onProcessor fun p => p.skipIf (p.get x == p.get y)
  | .skipUnlessSame x y => m.onProcessor fun p => p.skipIf (p.get x != p.get y)
  | .skipIfDown x => m.onProcessor fun p => p.skipIf (m.keypad.isDown (p.get x).toNat)
  | .skipIfUp x => m.onProcessor fun p => p.skipIf !(m.keypad.isDown (p.get x).toNat)
  | .setByte x value => m.onProcessor (·.set x value)
  | .addByte x value => m.onProcessor fun p => p.set x (p.get x + value)
  | .copy x y => m.onProcessor fun p => p.set x (p.get y)
  | .or x y => m.onProcessor fun p => p.set x (p.get x ||| p.get y)
  | .and x y => m.onProcessor fun p => p.set x (p.get x &&& p.get y)
  | .xor x y => m.onProcessor fun p => p.set x (p.get x ^^^ p.get y)
  | .add x y => m.onProcessor (·.add x y)
  | .subtract x y => m.onProcessor (·.subtract x y)
  | .shiftRight x => m.onProcessor (·.shiftRight x)
  | .subtractFrom x y => m.onProcessor (·.subtractFrom x y)
  | .shiftLeft x => m.onProcessor (·.shiftLeft x)
  | .setIndex target => m.onProcessor ({ · with index := UInt16.ofNat target.val })
  | .addIndex x => m.onProcessor (·.addIndex x)
  | .indexGlyph x =>
    m.onProcessor fun p => { p with index := UInt16.ofNat ((p.get x).toNat * glyphSize) }
  | .random x mask => m.drawRandom x mask
  | .draw x y rows => m.draw x y rows
  | .readDelay x => m.onProcessor fun p => p.set x p.delay
  | .setDelay x => m.onProcessor fun p => { p with delay := p.get x }
  | .setSound x => m.onProcessor fun p => { p with sound := p.get x }
  | .awaitKey x => m.onProcessor ({ · with waiting := true, keyRegister := x })
  | .storeDecimal x => m.storeAtIndex (m.processor.decimalDigits x)
  | .storeRegisters x => m.storeAtIndex (m.processor.firstRegisters x)
  | .loadRegisters x => m.loadRegisters x

/-- One look at the keypad while waiting: the lowest held key goes to the key register and ends the
wait. -/
def poll (m : Machine size) : Machine size :=
  match m.keypad.first? with
  | none => m
  | some k =>
    let p := m.processor.set m.processor.keyRegister (UInt8.ofNat k.val)
    { m with processor := { p with waiting := false } }

/-- Read the word at an address. The first byte is read, and counted, before the second. -/
def readWord (address : Int) : Machine size → Except OutOfRange Word × Machine size
  | ⟨p, memory, screen, keypad, random⟩ =>
    match memory.read address with
    | .error access => (.error access, ⟨p, memory, screen, keypad, random⟩)
    | .ok (high, memory) =>
      match memory.read (address + 1) with
      | .error access => (.error access, ⟨p, memory, screen, keypad, random⟩)
      | .ok (low, memory) =>
        (.ok (Word.ofBytes high low), ⟨p, memory, screen, keypad, random⟩)

end Machine

end Chip8
