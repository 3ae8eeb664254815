import Chip8.Emulator.Basic

/-! Running an emulator: single steps, frames, elapsed time, and up to a limit or an address.

A run ends early when a hook of the interpreter stops it; the debugger then holds the event. A fault
ends it too and is kept as the last fault. Every operation returns the emulator as it was left.
-/

set_option autoImplicit false

namespace Chip8

inductive RunError where
  | clock (error : ClockError Quantity)
  | fault (fault : Fault)

namespace Emulator

def noteFault (e : Emulator) (fault : Fault) : Emulator :=
  { e with lastFault := some fault }.log .error s!"{e.programName}: {fault.message}"

def eventText : Option StopEvent → String
  | some event => event.text
  | none => "None"

/-- Run at most `count` steps. The result is the debugger's last event if a hook stopped the run. -/
def runUpTo (e : Emulator) (count : Int) : Except Fault (Option StopEvent) × Emulator :=
  let (halt, ran, interpreter) := e.interpreter.run count.toNat 0
  let e := { e with interpreter, totalSteps := e.totalSteps + ran }
  match halt with
  | .completed => (.ok none, e)
  | .vetoed | .requested =>
    let event := e.debugger.lastEvent
    (.ok event, e.log .warning s!"{e.programName}: {eventText event}")
  | .failed fault => (.error fault, e.noteFault fault)

def applyTimerEvents (e : Emulator) (count : Nat) : Emulator :=
  let e := e.onInterpreter fun i => count.repeat Interpreter.countDown i
  { e with totalTimerEvents := e.totalTimerEvents + count }

/-- Run one step without regard to breakpoints. -/
def step (e : Emulator) : Except Fault StopEvent × Emulator :=
  let hooks := e.interpreter.hooks
  let (result, interpreter) := { e.interpreter with hooks := { hooks with onInstruction := none } }.step
  let e := { e with interpreter := { interpreter with hooks } }
  match result with
  | .error fault => (.error fault, e.noteFault fault)
  | .ok ran =>
    let e := { e with totalSteps := e.totalSteps + (if ran then 1 else 0) }
    -- A step passes every breakpoint, so nothing of it may stop the next run.
    let e := e.onInterpreter fun i => i.takeStopRequest.2
    let e := e.onDebugger Debugger.clearPass
    let pc := e.processor.pc
    let reason := if e.processor.waiting then .awaitingKey pc else .step pc
    (.ok ⟨reason, s!"Step to ${Text.hex 4 pc}"⟩, e)

/-- Run the steps of a frame and then one timer event. -/
def tick (e : Emulator) : Except Fault StopEvent × Emulator :=
  match e.runUpTo e.settings.frameSteps with
  | (.error fault, e) => (.error fault, e)
  | (.ok (some event), e) => (.ok event, e)
  | (.ok none, e) =>
    let e := e.applyTimerEvents 1
    (.ok { reason := .frame e.processor.pc }, e)

/-- Run the steps due and then the timer events due. A stop drops the rest of both. -/
def runTicks (e : Emulator) (ticks : Ticks) : Except Fault StopEvent × Emulator :=
  match e.runUpTo ticks.steps with
  | (.error fault, e) => (.error fault, e)
  | (.ok (some event), e) => (.ok event, e)
  | (.ok none, e) =>
    let e := e.applyTimerEvents ticks.timerEvents
    (.ok ⟨.elapsed e.processor.pc,
      s!"Ran {ticks.steps} steps, {ticks.timerEvents} timer events"⟩, e)

def run (e : Emulator) (elapsed : Quantity) : Except RunError StopEvent × Emulator :=
  match e.clock.advance elapsed with
  | .error error => (.error (.clock error), e)
  | .ok (ticks, clock) =>
    -- The clock keeps its new state also if a step fails.
    match { e with clock }.runTicks ticks with
    | (.error fault, e) => (.error (.fault fault), e)
    | (.ok event, e) => (.ok event, e)

/-- Run at most `limit` steps and no timer event. -/
def runSteps (e : Emulator) (limit : Int) : Except Fault StopEvent × Emulator :=
  match e.runUpTo limit with
  | (.error fault, e) => (.error fault, e)
  | (.ok (some event), e) => (.ok event, e)
  | (.ok none, e) => (.ok ⟨.stepLimit e.processor.pc, s!"Reached max steps ({limit})"⟩, e)

/-- The steps in which an address must be reached, unless told otherwise. -/
def defaultReach : Int := 100000

/-- Run until a breakpoint at an address stops the run, with a breakpoint of its own if none is
there. -/
def runUntil (e : Emulator) (address : Int) (limit : Int := defaultReach) :
    Except Fault Bool × Emulator :=
  if address ∈ e.debugger.breakpoints then reached (e.runSteps limit)
  else
    let (result, e) := reached ((e.onDebugger (·.addBreakpoint address)).runSteps limit)
    (result, e.onDebugger (·.removeBreakpoint address))
where
  reached : Except Fault StopEvent × Emulator → Except Fault Bool × Emulator
    | (.error fault, e) => (.error fault, e)
    | (.ok event, e) => (.ok (event.reason = .breakpoint address), e)

end Emulator

end Chip8
