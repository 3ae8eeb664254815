import Chip8.Debugger
import Chip8.Emulator.Settings
import Chip8.Folder
import Chip8.Interpreter

/-! The emulator: an interpreter under a debugger, a clock, and what a host wants to know of a run.

Messages to the host go to a journal.
-/

set_option autoImplicit false

namespace Chip8

def memorySize : Nat := 4096

/-- The most bytes that a program may have. -/
def maxProgramSize : Nat := memorySize - programStart

/-- The hooks through which a debugger sees a run. -/
def Debugger.hooks : Hooks Debugger where
  onInstruction := some fun d pc _ => d.checkInstruction pc
  onStore := some fun d store => d.checkWrite store.address store.value.toNat

structure Emulator where
  settings : Settings
  interpreter : Interpreter Debugger memorySize
  clock : SystemClock
  lastFault : Option Fault := none
  programName : String := "<none>"
  /-- Steps run since the last reset; a look at the keypad is a step. -/
  totalSteps : Nat := 0
  totalTimerEvents : Nat := 0
  journal : Journal := #[]

inductive LoadError where
  | empty (name : String)
  | tooLarge (name : String) (size : Nat)
  | notFound (path : String)
  | pathTooLong (path : String)
  deriving DecidableEq, Repr

def LoadError.message : LoadError → String
  | empty name => s!"Program {name} is empty"
  | tooLarge name size =>
    s!"Program {name} is {size} bytes; at most {maxProgramSize} bytes fit at ${Text.hex 3 programStart}"
  | notFound path => s!"ROM file not found: {path}"
  | pathTooLong path => FileError.nameTooLong.message path

namespace Emulator

def log (e : Emulator) (level : Level) (message : String) : Emulator :=
  { e with journal := e.journal.push ⟨level, message⟩ }

/-- The journal, which is empty afterwards. -/
def takeJournal (e : Emulator) : Journal × Emulator :=
  (e.journal, { e with journal := #[] })

def machine (e : Emulator) : Machine memorySize :=
  e.interpreter.machine

def processor (e : Emulator) : Processor :=
  e.interpreter.machine.processor

def debugger (e : Emulator) : Debugger :=
  e.interpreter.observer

def onInterpreter (e : Emulator)
    (change : Interpreter Debugger memorySize → Interpreter Debugger memorySize) : Emulator :=
  { e with interpreter := change e.interpreter }

def onMachine (e : Emulator) (change : Machine memorySize → Machine memorySize) : Emulator :=
  e.onInterpreter fun i => { i with machine := change i.machine }

def onDebugger (e : Emulator) (change : Debugger → Debugger) : Emulator :=
  e.onInterpreter fun i => { i with observer := change i.observer }

/-- Memory after a reset: zeros with the glyphs at its start, and nothing counted. -/
def powerOnMemory (m : Memory memorySize) : Memory memorySize :=
  (m.reset.store 0 glyphs).resetCounters

/-- Back to the state at power-on. Held keys, the random bytes, breakpoints, watchpoints, the pass of
a breakpoint, the frequency and the program's name are kept; the program itself is erased. -/
def reset (e : Emulator) : Emulator :=
  let e := e.onInterpreter Interpreter.reset
  let e := e.onMachine fun m => { m with memory := powerOnMemory m.memory, screen := m.screen.clear }
  let e := e.onDebugger Debugger.clearEvent
  let e := { e with
    clock := e.clock.reset, lastFault := none, totalSteps := 0, totalTimerEvents := 0 }
  e.log .debug "Emulator reset"

/-- A new emulator, on a screen and a keypad that a host may share. Random bytes come from the seed
of the settings, or else from the given one. -/
def create (settings : Settings) (screen : Screen := .blank) (keypad : Keypad := .released)
    (entropy : Int := 0) : Except (ClockError Quantity) Emulator :=
  match Clock.start settings.frequency with
  | .error error => .error error
  | .ok clock =>
    let machine : Machine memorySize := {
      processor := .powerOn
      memory := .zeros memorySize settings.watchMemory
      screen, keypad
      random := .ofSeed (settings.seed.getD entropy) }
    let interpreter : Interpreter Debugger memorySize := {
      machine
      cache := if settings.cacheDecoded then some ∅ else none
      hooks := Debugger.hooks
      observer := {}
      stopRequested := false }
    .ok (reset { settings, interpreter, clock })

def loadProgram (e : Emulator) (data : List UInt8) (name : String := "<bytes>") :
    Except LoadError Emulator :=
  if data.isEmpty then .error (.empty name)
  else if maxProgramSize < data.length then .error (.tooLarge name data.length)
  else
    let e := e.onMachine fun m => { m with memory := m.memory.store programStart data }
    let e := e.onInterpreter (·.invalidate programStart data.length)
    .ok ({ e with programName := name }.log .debug
      s!"Loaded {data.length} bytes from {name} at ${Text.hex 3 programStart}")

/-- Load the file at a path, given what the path leads to. -/
def loadRom (e : Emulator) (path : String) (status : PathStatus) : Except LoadError Emulator :=
  match status with
  | .found (.file data) =>
    let name := PathText.name path
    match e.loadProgram data name with
    | .error error => .error error
    | .ok e => .ok (e.log .info s!"Loaded ROM {name}")
  | .tooLong => .error (.pathTooLong (PathText.normal path))
  | _ => .error (.notFound (PathText.normal path))

def summary (e : Emulator) : String :=
  s!"Emulator(program={e.programName}, pc=${Text.hex 4 e.processor.pc}, steps={e.totalSteps})"

end Emulator

end Chip8
