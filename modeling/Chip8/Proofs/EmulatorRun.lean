import Chip8.Emulator.Run
import Chip8.Proofs.Run

/-! Runs of an emulator, told by the runs of its interpreter.

A run hands the steps of its interpreter through: what the emulator adds is the count of steps, the
journal, and the fault that it keeps. A single step asks no debugger.
-/

set_option autoImplicit false

namespace Chip8

open Interpreter (Ran)

def Interpreter.unasked {σ : Type} {size : Nat} (i : Interpreter σ size) : Interpreter σ size :=
  { i with hooks := { i.hooks with onInstruction := none } }

theorem Interpreter.unasked_step {σ : Type} {size : Nat} {i j : Interpreter σ size} {go : Bool}
    (step : i.unasked.step = (.ok go, j)) : go = true := by
  cases stepped step with
  | polled waiting => rfl
  | executed active fetch ask done => rfl
  | vetoed active fetch ask =>
    rw [fetch_keeps fetch] at ask
    cases ask

namespace Emulator

variable {e : Emulator}

def afterSteps (e : Emulator) (ran : Nat) (i : Interpreter Debugger memorySize) : Emulator :=
  { e with interpreter := i, totalSteps := e.totalSteps + ran }

def stopped (e : Emulator) : Emulator :=
  e.log .warning s!"{e.programName}: {eventText e.debugger.lastEvent}"

theorem runUpTo_completed {count : Int} {ran : Nat} {i : Interpreter Debugger memorySize}
    (way : Ran e.interpreter count.toNat .completed ran i) :
    e.runUpTo count = (.ok none, e.afterSteps ran i) := by
  simp only [runUpTo, way.run_eq, Nat.zero_add, afterSteps]

theorem runUpTo_failed {count : Int} {ran : Nat} {i : Interpreter Debugger memorySize}
    {fault : Fault} (way : Ran e.interpreter count.toNat (.failed fault) ran i) :
    e.runUpTo count = (.error fault, (e.afterSteps ran i).noteFault fault) := by
  simp only [runUpTo, way.run_eq, Nat.zero_add, afterSteps]

theorem runUpTo_vetoed {count : Int} {ran : Nat} {i : Interpreter Debugger memorySize}
    (way : Ran e.interpreter count.toNat .vetoed ran i) :
    e.runUpTo count = (.ok i.observer.lastEvent, (e.afterSteps ran i).stopped) := by
  simp only [runUpTo, way.run_eq, Nat.zero_add]
  rfl

theorem runUpTo_requested {count : Int} {ran : Nat} {i : Interpreter Debugger memorySize}
    (way : Ran e.interpreter count.toNat .requested ran i) :
    e.runUpTo count = (.ok i.observer.lastEvent, (e.afterSteps ran i).stopped) := by
  simp only [runUpTo, way.run_eq, Nat.zero_add]
  rfl

theorem interpreter_runUpTo (e : Emulator) (count : Int) :
    ∃ halt ran, Ran e.interpreter count.toNat halt ran (e.runUpTo count).2.interpreter := by
  obtain ⟨halt, ran, i, way⟩ := e.interpreter.exists_ran count.toNat
  refine ⟨halt, ran, ?_⟩
  have same : (e.runUpTo count).2.interpreter = i := by
    simp only [runUpTo, way.run_eq]
    cases halt <;> rfl
  rw [same]
  exact way

/-! ### Runs with an end of their own -/

def runAndFinish (e : Emulator) (count : Int) (finish : Emulator → StopEvent × Emulator) :
    Except Fault StopEvent × Emulator :=
  match e.runUpTo count with
  | (.error fault, e) => (.error fault, e)
  | (.ok (some event), e) => (.ok event, e)
  | (.ok none, e) => (.ok (finish e).1, (finish e).2)

def atLimit (limit : Int) (e : Emulator) : StopEvent × Emulator :=
  (⟨.stepLimit e.processor.pc, s!"Reached max steps ({limit})"⟩, e)

def atFrame (e : Emulator) : StopEvent × Emulator :=
  ({ reason := .frame (e.applyTimerEvents 1).processor.pc }, e.applyTimerEvents 1)

def atElapsed (ticks : Ticks) (e : Emulator) : StopEvent × Emulator :=
  (⟨.elapsed (e.applyTimerEvents ticks.timerEvents).processor.pc,
    s!"Ran {ticks.steps} steps, {ticks.timerEvents} timer events"⟩,
    e.applyTimerEvents ticks.timerEvents)

theorem runSteps_eq (e : Emulator) (limit : Int) :
    e.runSteps limit = e.runAndFinish limit (atLimit limit) := rfl

theorem tick_eq (e : Emulator) : e.tick = e.runAndFinish e.settings.frameSteps atFrame := rfl

theorem runTicks_eq (e : Emulator) (ticks : Ticks) :
    e.runTicks ticks = e.runAndFinish ticks.steps (atElapsed ticks) := rfl

theorem runSteps_completed (limit : Int) {ran : Nat} {i : Interpreter Debugger memorySize}
    (way : Ran e.interpreter limit.toNat .completed ran i) :
    e.runSteps limit =
      (.ok ⟨.stepLimit i.machine.processor.pc, s!"Reached max steps ({limit})"⟩,
        e.afterSteps ran i) := by
  simp only [runSteps_eq, runAndFinish, runUpTo_completed way]
  rfl

theorem runSteps_failed (limit : Int) {ran : Nat} {i : Interpreter Debugger memorySize}
    {fault : Fault} (way : Ran e.interpreter limit.toNat (.failed fault) ran i) :
    e.runSteps limit = (.error fault, (e.afterSteps ran i).noteFault fault) := by
  simp only [runSteps_eq, runAndFinish, runUpTo_failed way]

theorem runSteps_vetoed (limit : Int) {ran : Nat} {i : Interpreter Debugger memorySize}
    (way : Ran e.interpreter limit.toNat .vetoed ran i) {event : StopEvent}
    (last : i.observer.lastEvent = some event) :
    e.runSteps limit = (.ok event, (e.afterSteps ran i).stopped) := by
  simp only [runSteps_eq, runAndFinish, runUpTo_vetoed way, last]

theorem runSteps_requested (limit : Int) {ran : Nat} {i : Interpreter Debugger memorySize}
    (way : Ran e.interpreter limit.toNat .requested ran i) {event : StopEvent}
    (last : i.observer.lastEvent = some event) :
    e.runSteps limit = (.ok event, (e.afterSteps ran i).stopped) := by
  simp only [runSteps_eq, runAndFinish, runUpTo_requested way, last]

/-! ### Single steps -/

def stepEvent (e : Emulator) : StopEvent :=
  let pc := e.processor.pc
  ⟨if e.processor.waiting then .awaitingKey pc else .step pc, s!"Step to ${Text.hex 4 pc}"⟩

/-- What a single step leaves of an interpreter with some hooks: nothing of it stops a later run. -/
def disarmed (i : Interpreter Debugger memorySize) (hooks : Hooks Debugger) :
    Interpreter Debugger memorySize :=
  { i with hooks, stopRequested := false, observer := i.observer.clearPass }

theorem step_failed {fault : Fault} {i : Interpreter Debugger memorySize}
    (step : e.interpreter.unasked.step = (.error fault, i)) :
    e.step = (.error fault,
      { e with interpreter := { i with hooks := e.interpreter.hooks } }.noteFault fault) := by
  simp only [Interpreter.unasked] at step
  simp only [Emulator.step, step]

theorem step_ran {i : Interpreter Debugger memorySize}
    (step : e.interpreter.unasked.step = (.ok true, i)) :
    e.step = (.ok (e.afterSteps 1 (disarmed i e.interpreter.hooks)).stepEvent,
      e.afterSteps 1 (disarmed i e.interpreter.hooks)) := by
  simp only [Interpreter.unasked] at step
  simp only [Emulator.step, step]
  rfl

end Emulator

end Chip8
