import Chip8.Proofs.Request

/-! The journal is written and never read.

Older entries in the journal change nothing in what an emulator does: all requests get the same
answers, and leave the same behind those entries.
-/

set_option autoImplicit false

namespace Chip8.Emulator

open Interpreter (Ran)

def behind (e : Emulator) (before : Journal) : Emulator :=
  { e with journal := before ++ e.journal }

variable (before : Journal)

@[simp] theorem machine_behind (e : Emulator) : (e.behind before).machine = e.machine := rfl

@[simp] theorem debugger_behind (e : Emulator) : (e.behind before).debugger = e.debugger := rfl

@[simp] theorem clock_behind (e : Emulator) : (e.behind before).clock = e.clock := rfl

/-! ### Runs -/

theorem log_behind (e : Emulator) (level : Level) (message : String) :
    (e.behind before).log level message = (e.log level message).behind before := by
  simp only [log, behind, Array.append_push]

theorem noteFault_behind (e : Emulator) (fault : Fault) :
    (e.behind before).noteFault fault = (e.noteFault fault).behind before :=
  log_behind before { e with lastFault := some fault } _ _

theorem stopped_behind (e : Emulator) : (e.behind before).stopped = e.stopped.behind before :=
  log_behind before e _ _

theorem runUpTo_behind (e : Emulator) (count : Int) :
    (e.behind before).runUpTo count =
      ((e.runUpTo count).1, (e.runUpTo count).2.behind before) := by
  obtain ⟨halt, ran, i, way⟩ := e.interpreter.exists_ran count.toNat
  have way' : Ran (e.behind before).interpreter count.toNat halt ran i := way
  cases halt with
  | completed =>
    rw [runUpTo_completed way, runUpTo_completed way']
    rfl
  | failed fault =>
    rw [runUpTo_failed way, runUpTo_failed way']
    exact congrArg _ (noteFault_behind before (e.afterSteps ran i) fault)
  | vetoed =>
    rw [runUpTo_vetoed way, runUpTo_vetoed way']
    exact congrArg _ (stopped_behind before (e.afterSteps ran i))
  | requested =>
    rw [runUpTo_requested way, runUpTo_requested way']
    exact congrArg _ (stopped_behind before (e.afterSteps ran i))

theorem runAndFinish_behind (e : Emulator) (count : Int) {finish : Emulator → StopEvent × Emulator}
    (finished : ∀ left : Emulator,
      finish (left.behind before) = ((finish left).1, (finish left).2.behind before)) :
    (e.behind before).runAndFinish count finish =
      ((e.runAndFinish count finish).1, (e.runAndFinish count finish).2.behind before) := by
  simp only [runAndFinish, runUpTo_behind]
  obtain ⟨result, left⟩ := e.runUpTo count
  cases result with
  | error fault => rfl
  | ok stopped =>
    cases stopped with
    | some event => rfl
    | none => simp only [finished]

theorem runSteps_behind (e : Emulator) (limit : Int) :
    (e.behind before).runSteps limit =
      ((e.runSteps limit).1, (e.runSteps limit).2.behind before) := by
  rw [runSteps_eq, runSteps_eq]
  exact e.runAndFinish_behind before limit fun left => rfl

theorem runTicks_behind (e : Emulator) (ticks : Ticks) :
    (e.behind before).runTicks ticks =
      ((e.runTicks ticks).1, (e.runTicks ticks).2.behind before) := by
  rw [runTicks_eq, runTicks_eq]
  exact e.runAndFinish_behind before ticks.steps fun left => rfl

theorem tick_behind (e : Emulator) :
    (e.behind before).tick = (e.tick.1, e.tick.2.behind before) := by
  rw [tick_eq, tick_eq]
  exact e.runAndFinish_behind before e.settings.frameSteps fun left => rfl

theorem run_behind (e : Emulator) (elapsed : Quantity) :
    (e.behind before).run elapsed = ((e.run elapsed).1, (e.run elapsed).2.behind before) := by
  unfold Emulator.run
  rw [clock_behind]
  split
  · rfl
  · next ticks clock advanced =>
    have apart : { e.behind before with clock } = { e with clock }.behind before := rfl
    rw [apart, runTicks_behind]
    generalize { e with clock }.runTicks ticks = outcome
    obtain ⟨result, left⟩ := outcome
    cases result <;> rfl

theorem step_behind (e : Emulator) :
    (e.behind before).step = (e.step.1, e.step.2.behind before) := by
  match step : e.interpreter.unasked.step with
  | (.error fault, i) =>
    have step' : (e.behind before).interpreter.unasked.step = (.error fault, i) := step
    rw [step_failed step, step_failed step']
    exact congrArg _ (noteFault_behind before
      { e with interpreter := { i with hooks := e.interpreter.hooks } } fault)
  | (.ok go, i) =>
    obtain rfl := Interpreter.unasked_step step
    have step' : (e.behind before).interpreter.unasked.step = (.ok true, i) := step
    rw [step_ran step, step_ran step']
    rfl

theorem runUntil_behind (e : Emulator) (address limit : Int) :
    (e.behind before).runUntil address limit =
      ((e.runUntil address limit).1, (e.runUntil address limit).2.behind before) := by
  have reached (left : Emulator) :
      runUntil.reached address ((left.behind before).runSteps limit) =
        ((runUntil.reached address (left.runSteps limit)).1,
          (runUntil.reached address (left.runSteps limit)).2.behind before) := by
    rw [runSteps_behind]
    obtain ⟨result, stopped⟩ := left.runSteps limit
    cases result <;> rfl
  unfold Emulator.runUntil
  rw [debugger_behind]
  split
  · exact reached e
  · have armed := reached (e.onDebugger (·.addBreakpoint address))
    have apart : (e.behind before).onDebugger (·.addBreakpoint address) =
        (e.onDebugger (·.addBreakpoint address)).behind before := rfl
    rw [apart, armed]
    rfl

/-! ### Requests -/

theorem loadProgram_behind (e : Emulator) (data : List UInt8) (name : String) :
    (e.behind before).loadProgram data name = (e.loadProgram data name).map (·.behind before) := by
  unfold loadProgram
  split
  · rfl
  · split
    · rfl
    · simp only [Except.map, ← log_behind]
      rfl

theorem loadRom_behind (e : Emulator) (path : String) (status : PathStatus) :
    (e.behind before).loadRom path status = (e.loadRom path status).map (·.behind before) := by
  unfold loadRom
  split
  · next data =>
    simp only [loadProgram_behind]
    cases e.loadProgram data (PathText.name path) with
    | error error => rfl
    | ok left => exact congrArg Except.ok (log_behind before _ _ _)
  · rfl
  · rfl

theorem conclude_behind {ε α : Type} (refuse : ε → Refusal) (answer : α → Answer)
    (result : Except ε α × Emulator) :
    conclude refuse answer (result.1, result.2.behind before) =
      ((conclude refuse answer result).1, (conclude refuse answer result).2.behind before) := by
  obtain ⟨result, left⟩ := result
  cases result <;> rfl

theorem reset_behind (e : Emulator) : (e.behind before).reset = e.reset.behind before := by
  simp only [reset, behind, log, onInterpreter, onMachine, onDebugger, Array.append_push]

/-- What an emulator does never depends on its journal. -/
theorem perform_behind (e : Emulator) (request : Request) :
    (e.behind before).perform request =
      ((e.perform request).1, (e.perform request).2.behind before) := by
  -- Nothing that is served looks at the journal, and what is written goes to its end.
  cases request with
  | reset => exact congrArg _ (reset_behind before e)
  | load data name =>
    simp only [Emulator.perform, loadProgram_behind]
    cases e.loadProgram data name <;> rfl
  | loadRom path status =>
    simp only [Emulator.perform, loadRom_behind]
    cases e.loadRom path status <;> rfl
  | step =>
    simp only [Emulator.perform, step_behind]
    exact conclude_behind before _ _ _
  | tick =>
    simp only [Emulator.perform, tick_behind]
    exact conclude_behind before _ _ _
  | run elapsed =>
    simp only [Emulator.perform, run_behind]
    exact conclude_behind before _ _ _
  | runTicks ticks =>
    simp only [Emulator.perform, runTicks_behind]
    exact conclude_behind before _ _ _
  | runSteps limit =>
    simp only [Emulator.perform, runSteps_behind]
    exact conclude_behind before _ _ _
  | runUntil address limit =>
    simp only [Emulator.perform, runUntil_behind]
    exact conclude_behind before _ _ _
  | pressKey name =>
    simp only [Emulator.perform, pressKey]
    cases name.key <;> rfl
  | releaseKey name =>
    simp only [Emulator.perform, releaseKey]
    cases name.key <;> rfl
  | readByte address =>
    simp only [Emulator.perform, readByte, machine_behind]
    cases e.machine.memory.read address <;> rfl
  | readBytes address count =>
    simp only [Emulator.perform, readBytes, machine_behind]
    cases e.machine.memory.readRange address count <;> rfl
  | writeByte address value =>
    simp only [Emulator.perform, writeByte, pokeByte, machine_behind]
    cases e.machine.memory.write address value <;> rfl
  | writeBytes address data =>
    simp only [Emulator.perform, writeBytes, machine_behind]
    cases e.machine.memory.writeRange address data <;> rfl
  | setFrequency frequency =>
    simp only [Emulator.perform, setFrequency, clock_behind]
    cases e.clock.setFrequency frequency <;> rfl
  | render scale =>
    simp only [Emulator.perform, render, machine_behind]
    cases e.machine.screen.render scale 255 0 <;> rfl
  | disassemble address count =>
    have same : (e.behind before).disassemble address count = e.disassemble address count := rfl
    simp only [Emulator.perform, same]
    cases e.disassemble address count <;> rfl
  | _ => rfl

theorem performAll_behind (e : Emulator) (requests : List Request) :
    (e.behind before).performAll requests =
      ((e.performAll requests).1, (e.performAll requests).2.behind before) := by
  induction requests generalizing e with
  | nil => rfl
  | cons request requests ih => simp only [Emulator.performAll, perform_behind, ih]

end Chip8.Emulator
