import Chip8.Emulator.Basic
import Chip8.Listing

/-! What a host may do between runs: keys, memory, breakpoints and the screen.

An operation that fails leaves the emulator as it was.
-/

set_option autoImplicit false

namespace Chip8.Emulator

def addBreakpoint (e : Emulator) (address : Int) : Emulator :=
  e.onDebugger (·.addBreakpoint address)

def removeBreakpoint (e : Emulator) (address : Int) : Emulator :=
  e.onDebugger (·.removeBreakpoint address)

def addWatchpoint (e : Emulator) (address : Int) : Emulator :=
  e.onDebugger (·.addWatchpoint address)

def removeWatchpoint (e : Emulator) (address : Int) : Emulator :=
  e.onDebugger (·.removeWatchpoint address)

def clearBreakpoints (e : Emulator) : Emulator :=
  e.onDebugger Debugger.clearAll

def onKeypad (e : Emulator) (change : Keypad → Keypad) : Emulator :=
  e.onMachine fun m => { m with keypad := change m.keypad }

def pressKey (e : Emulator) (name : KeyName) : Except KeyError Emulator :=
  name.key.map fun k => e.onKeypad (·.press k)

def releaseKey (e : Emulator) (name : KeyName) : Except KeyError Emulator :=
  name.key.map fun k => e.onKeypad (·.release k)

def releaseAllKeys (e : Emulator) : Emulator :=
  e.onKeypad fun _ => .released

def withMemory (e : Emulator) (memory : Memory memorySize) : Emulator :=
  e.onMachine fun m => { m with memory }

def readByte (e : Emulator) (address : Int) : Except OutOfRange (UInt8 × Emulator) :=
  (e.machine.memory.read address).map fun (b, memory) => (b, e.withMemory memory)

def readBytes (e : Emulator) (address count : Int) : Except OutOfRange (List UInt8 × Emulator) :=
  (e.machine.memory.readRange address count).map fun (data, memory) => (data, e.withMemory memory)

/-- Write to memory and keep the cache as it is. -/
def pokeByte (e : Emulator) (address value : Int) : Except OutOfRange Emulator :=
  (e.machine.memory.write address value).map e.withMemory

/-- Write to memory and drop what becomes stale in the cache. -/
def writeByte (e : Emulator) (address value : Int) : Except OutOfRange Emulator :=
  (e.pokeByte address value).map (·.onInterpreter (·.invalidate address 1))

/-- Write bytes to memory and drop what becomes stale in the cache. -/
def writeBytes (e : Emulator) (address : Int) (data : List UInt8) : Except OutOfRange Emulator :=
  (e.machine.memory.writeRange address data).map fun memory =>
    (e.withMemory memory).onInterpreter (·.invalidate address data.length)

def setFrequency (e : Emulator) (frequency : Quantity) : Except (ClockError Quantity) Emulator :=
  (e.clock.setFrequency frequency).map fun clock => { e with clock }

def displayText (e : Emulator) : String :=
  e.machine.screen.text "#" "."

/-- One byte per pixel; marks the screen as shown. -/
def takePixels (e : Emulator) : List UInt8 × Emulator :=
  let (data, screen) := e.machine.screen.buffer
  (data, e.onMachine fun m => { m with screen })

def defaultScale : Int := 8

/-- The screen as a picture, white on black. -/
def render (e : Emulator) (scale : Int := defaultScale) : Except RenderError Picture :=
  e.machine.screen.render scale 255 0

/-- The listing of at most `count` words from an address on, up to the end of memory. Nothing is
counted as read. -/
def disassemble (e : Emulator) (address : Int) (count : Int := 10) :
    Except OutOfRange (List String) :=
  if address < 0 then .error ⟨address, memorySize⟩
  else .ok ((Listing.words true address (e.machine.memory.bytes.toList.drop address.toNat)).take
    count.toNat)

end Chip8.Emulator
