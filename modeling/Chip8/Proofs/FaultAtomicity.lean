import Chip8.Proofs.Counters
import Chip8.Proofs.Request
import Chip8.Proofs.StepOrder

/-! What a fault leaves behind.

A step that fails changes nothing that a program or its host can see, but for a program counter that
has moved past an instruction that was there and failed: what is checked is checked before the first
effect. A run that fails leaves what its steps before that left, counts them, applies no timer event
and keeps the fault.
-/

set_option autoImplicit false

namespace Chip8

variable {σ : Type} {size : Nat}

namespace Interpreter

variable {i j : Interpreter σ size}

/-! ### Single steps -/

/-- The program counter after a fault: past the instruction, if there was one. -/
def faultPc (i : Interpreter σ size) : Int :=
  match (i.fetch i.machine.processor.pc).1 with
  | .error _ => i.machine.processor.pc
  | .ok _ => i.machine.processor.pc + 2

/-- Everything is as before, but the program counter, the counters of reads, the cached instructions
and the observer. -/
structure Untouched (i j : Interpreter σ size) : Prop where
  processor : j.machine.processor = { i.machine.processor with pc := i.faultPc }
  bytes : j.machine.memory.bytes = i.machine.memory.bytes
  writes : j.machine.memory.tally.map (·.writes) = i.machine.memory.tally.map (·.writes)
  screen : j.machine.screen = i.machine.screen
  keypad : j.machine.keypad = i.machine.keypad
  random : j.machine.random = i.machine.random
  hooks : j.hooks = i.hooks
  stopRequested : j.stopRequested = i.stopRequested

theorem Untouched.of_bare
    (same : j.machine.bare =
      { i.machine.bare with processor := { i.machine.processor with pc := i.faultPc } })
    (writes : j.machine.memory.tally.map (·.writes) = i.machine.memory.tally.map (·.writes))
    (hooks : j.hooks = i.hooks) (stops : j.stopRequested = i.stopRequested) : i.Untouched j where
  processor := by rw [← Machine.processor_bare, same]
  bytes := by rw [← Memory.bytes_bare, ← Machine.memory_bare, same, Machine.memory_bare,
    Memory.bytes_bare]
  writes := writes
  screen := by rw [← Machine.screen_bare, same, Machine.screen_bare]
  keypad := by rw [← Machine.keypad_bare, same, Machine.keypad_bare]
  random := by rw [← Machine.random_bare, same, Machine.random_bare]
  hooks := hooks
  stopRequested := stops

/-- A refused step leaves all but the program counter as it was: what an instruction may be refused
comes before its first effect, and only the program counter has moved by then. -/
theorem untouched_of_refused {s left : Logged σ size} {fault : Fault}
    (refused : StepProcedure.step.made s = (.error fault, left)) :
    s.interpreter.Untouched left.interpreter := by
  cases Logged.stepped refused with
  | @unfetched cause fetched active found =>
    have fetch : s.interpreter.fetch s.interpreter.machine.processor.pc =
        (.error cause, left.interpreter) := Logged.fetch_of_refused found
    obtain ⟨same, writes⟩ := fetch_leaves fetch
    have kept := fetch_keeps fetch
    refine .of_bare ?_ writes (by rw [kept]) (by rw [kept])
    rw [faultPc, fetch]
    exact same
  | @failed r fetched asked left cause active found asks failed =>
    -- What asking left is what the refused instruction left.
    obtain rfl := r.atomic_execute _ _ _ failed
    have fetch : s.interpreter.fetch s.interpreter.machine.processor.pc =
        (.ok ⟨r.opcode, r.typed⟩, fetched.interpreter) := Logged.fetch_of_made found
    obtain ⟨same, writes⟩ := fetch_leaves fetch
    have kept : asked.interpreter = { s.interpreter with
        machine := fetched.interpreter.machine
        cache := fetched.interpreter.cache
        observer := asked.interpreter.observer } := by
      rw [ask_keeps (Logged.interpreter_ask asks), fetch_keeps fetch]
    have machine : asked.interpreter.machine = fetched.interpreter.machine := by rw [kept]
    have hooks : asked.interpreter.hooks = s.interpreter.hooks := by rw [kept]
    have stops : asked.interpreter.stopRequested = s.interpreter.stopRequested := by rw [kept]
    refine .of_bare ?_ ?_ hooks stops
    · have moved := congrArg (fun m : Machine size => { m with
        processor := { m.processor with pc := s.interpreter.machine.processor.pc + 2 } }) same
      rw [← machine] at moved
      rw [faultPc, fetch]
      exact moved
    · rw [← machine] at writes
      exact writes

/-- A failed step leaves all but the program counter as it was. -/
theorem untouched_of_failed {fault : Fault} (step : i.step = (.error fault, j)) :
    i.Untouched j := by
  have same := Logged.step_eq_made ⟨i, []⟩
  rw [step] at same
  obtain ⟨result, left⟩ := Prod.mk.inj same
  have refused := untouched_of_refused (Prod.ext result.symm rfl)
  exact left ▸ refused

/-- Steps as they are carried out, check by check and effect by effect. Nothing is undone after a
refusal, and still nothing of what was done is left. -/
structure CarriedOut (σ : Type) (size : Nat) : Prop where
  -- The checks and effects come to a step.
  step : ∀ s : Logged σ size, s.interpreter.step =
    ((StepProcedure.step.made s).1, (StepProcedure.step.made s).2.interpreter)
  -- Those of an instruction come to its effect.
  execute : ∀ (r : Record) (s : Logged σ size),
    r.execute.made s = s.concluded (s.machine.execute r.typed)
  atomic : ∀ r : Record, Procedure.Atomic (r.execute : StepProcedure σ size Unit)
  untouched : ∀ (s left : Logged σ size) (fault : Fault),
    StepProcedure.step.made s = (.error fault, left) → s.interpreter.Untouched left.interpreter

theorem carriedOut (σ : Type) (size : Nat) : CarriedOut σ size where
  step := Logged.step_eq_made
  execute := Record.made_execute
  atomic := Record.atomic_execute
  untouched _ _ _ := untouched_of_refused

theorem fetch_unasked (i : Interpreter σ size) (pc : Int) :
    i.unasked.fetch pc = ((i.fetch pc).1, (i.fetch pc).2.unasked) := by
  cases look : i.cache.bind (·[pc]?) with
  | some decoded => rw [fetch_of_hit look, fetch_of_hit (i := i.unasked) look]
  | none =>
    rw [fetch_of_miss look, fetch_of_miss (i := i.unasked) look]
    rfl

theorem faultPc_unasked (i : Interpreter σ size) : i.unasked.faultPc = i.faultPc := by
  rw [faultPc, fetch_unasked]
  rfl

theorem step_unasked_of_failed {fault : Fault} (step : i.step = (.error fault, j)) :
    i.unasked.step.1 = .error fault := by
  have fetch_unasked {result fetched} (fetch : i.fetch i.machine.processor.pc = (result, fetched)) :
      i.unasked.fetch i.machine.processor.pc = (result, fetched.unasked) := by
    rw [i.fetch_unasked, fetch]
  cases stepped step with
  | unfetched active fetch =>
    rw [(Stepped.unfetched (i := i.unasked) active (fetch_unasked fetch)).step_eq]
    rfl
  | @failed decoded fetched asked cause active fetch ask failed =>
    have machine : asked.machine = fetched.machine := by rw [ask_keeps ask]
    have failed' : (fetched.unasked.passed i.machine.processor.pc).machine.execute
        decoded.instruction = .error cause := by
      rw [← failed, passed, onProcessor, passed, onProcessor, machine]
      rfl
    rw [(Stepped.failed (i := i.unasked) active (fetch_unasked fetch) rfl failed').step_eq]
    rfl

theorem Ran.before_fault {steps count : Nat} {fault : Fault}
    (way : Ran i steps (.failed fault) count j) :
    ∃ m, Ran i count .completed count m ∧ m.step = (.error fault, j) := by
  -- The steps before the fault are a completed run of their own.
  generalize ended : Halt.failed fault = halt at way
  induction way with
  | completed => cases ended
  | failed step =>
    cases ended
    exact ⟨_, .completed, step⟩
  | vetoed step => cases ended
  | requested step requested => cases ended
  | more step quiet rest ih =>
    obtain ⟨m, first, failed⟩ := ih ended
    exact ⟨m, .more step quiet first, failed⟩

end Interpreter

namespace Emulator

open Interpreter (Ran)

variable {e left : Emulator} {fault : Fault}

/-! ### Runs -/

inductive Fails (e : Emulator) (fault : Fault) (left : Emulator) : Prop where
  | step : e.step = (.error fault, left) → Fails e fault left
  | runSteps {limit : Int} : e.runSteps limit = (.error fault, left) → Fails e fault left
  | tick : e.tick = (.error fault, left) → Fails e fault left
  | runTicks {ticks : Ticks} : e.runTicks ticks = (.error fault, left) → Fails e fault left
  | run {elapsed : Quantity} : e.run elapsed = (.error (.fault fault), left) → Fails e fault left

/-- What a call leaves that failed after `k` steps, and what these steps alone leave. -/
structure FailedAfter (e : Emulator) (k : Nat) (fault : Fault) (middle left : Emulator) : Prop where
  -- Nothing ends the first steps early.
  first : ∃ event, e.runSteps k = (.ok event, middle) ∧
    event.reason = .stepLimit middle.processor.pc
  -- The step after them fails.
  next : middle.interpreter.unasked.step.1 = .error fault
  untouched : middle.interpreter.Untouched left.interpreter
  totalSteps : left.totalSteps = e.totalSteps + k
  totalTimerEvents : left.totalTimerEvents = e.totalTimerEvents
  lastFault : left.lastFault = some fault
  hooks : left.interpreter.hooks = e.interpreter.hooks

theorem failedAfter_of_ran {steps k : Nat} {i : Interpreter Debugger memorySize}
    (way : Ran e.interpreter steps (.failed fault) k i) (interpreter : left.interpreter = i)
    (totalSteps : left.totalSteps = e.totalSteps + k)
    (totalTimerEvents : left.totalTimerEvents = e.totalTimerEvents)
    (lastFault : left.lastFault = some fault) : ∃ middle, e.FailedAfter k fault middle left := by
  obtain ⟨m, first, failed⟩ := way.before_fault
  refine ⟨e.afterSteps k m, ?_⟩
  exact {
    first := ⟨_, runSteps_completed k first, rfl⟩
    next := Interpreter.step_unasked_of_failed failed
    untouched := interpreter ▸ Interpreter.untouched_of_failed failed
    totalSteps
    totalTimerEvents
    lastFault
    hooks := by rw [interpreter, way.hooks_eq] }

theorem ran_of_runUpTo_failed {count : Int} (run : e.runUpTo count = (.error fault, left)) :
    ∃ k i, Ran e.interpreter count.toNat (.failed fault) k i ∧
      left = (e.afterSteps k i).noteFault fault := by
  obtain ⟨halt, k, i, way⟩ := e.interpreter.exists_ran count.toNat
  cases halt with
  | completed =>
    rw [runUpTo_completed way] at run
    cases run
  | vetoed =>
    rw [runUpTo_vetoed way] at run
    cases run
  | requested =>
    rw [runUpTo_requested way] at run
    cases run
  | failed fault' =>
    rw [runUpTo_failed way] at run
    cases run
    exact ⟨k, i, way, rfl⟩

theorem ran_of_runAndFinish_failed {count : Int} {finish : Emulator → StopEvent × Emulator}
    (run : e.runAndFinish count finish = (.error fault, left)) :
    ∃ k i, Ran e.interpreter count.toNat (.failed fault) k i ∧
      left = (e.afterSteps k i).noteFault fault := by
  unfold runAndFinish at run
  match ran : e.runUpTo count with
  | (.error fault', middle) =>
    rw [ran] at run
    cases run
    exact ran_of_runUpTo_failed ran
  | (.ok (some event), middle) | (.ok none, middle) =>
    rw [ran] at run
    cases run

theorem failedAfter_of_runAndFinish {count : Int} {finish : Emulator → StopEvent × Emulator}
    (run : e.runAndFinish count finish = (.error fault, left)) :
    ∃ k middle, e.FailedAfter k fault middle left := by
  obtain ⟨k, i, way, rfl⟩ := ran_of_runAndFinish_failed run
  exact ⟨k, failedAfter_of_ran way rfl rfl rfl rfl⟩

theorem failedAfter_of_run {elapsed : Quantity} (run : e.run elapsed = (.error (.fault fault), left)) :
    ∃ k middle, e.FailedAfter k fault middle left := by
  unfold Emulator.run at run
  split at run
  · cases run
  · next ticks clock advanced =>
    -- The clock has moved on, and has no part in the steps.
    match ran : { e with clock }.runTicks ticks with
    | (.error fault', middle) =>
      rw [ran] at run
      cases run
      rw [runTicks_eq] at ran
      obtain ⟨k, i, way, rfl⟩ := ran_of_runAndFinish_failed ran
      exact ⟨k, failedAfter_of_ran way rfl rfl rfl rfl⟩
    | (.ok event, middle) =>
      rw [ran] at run
      cases run

theorem failedAfter_of_step (run : e.step = (.error fault, left)) :
    ∃ middle, e.FailedAfter 0 fault middle left := by
  match step : e.interpreter.unasked.step with
  | (.ok go, i) =>
    obtain rfl := Interpreter.unasked_step step
    rw [step_ran step] at run
    cases run
  | (.error fault', i) =>
    rw [step_failed step] at run
    cases run
    -- A single step asks nobody, so it fails as the first step of a run would.
    have same := Interpreter.untouched_of_failed step
    refine ⟨e.afterSteps 0 e.interpreter, ?_⟩
    exact {
      first := ⟨_, runSteps_completed (0 : Nat) .completed, rfl⟩
      next := congrArg Prod.fst step
      untouched := { same with
        processor := e.interpreter.faultPc_unasked ▸ same.processor
        hooks := rfl }
      totalSteps := rfl
      totalTimerEvents := rfl
      lastFault := rfl
      hooks := rfl }

/-- Faults are atomic: a step that fails leaves all but the program counter as it was, though what it
did before is not undone, and a call that fails leaves what its steps before the failed one leave. -/
theorem fault_atomic :
    (∀ {σ : Type} {size : Nat} (i j : Interpreter σ size) (fault : Fault),
      i.step = (.error fault, j) → i.Untouched j) ∧
    (∀ (e left : Emulator) (fault : Fault), e.Fails fault left →
      ∃ k middle, e.FailedAfter k fault middle left) ∧
    ∀ (σ : Type) (size : Nat), Interpreter.CarriedOut σ size := by
  refine ⟨fun i j fault step => Interpreter.untouched_of_failed step, fun e left fault fails => ?_,
    Interpreter.carriedOut⟩
  cases fails with
  | step run => exact ⟨0, failedAfter_of_step run⟩
  | runSteps run =>
    rw [runSteps_eq] at run
    exact failedAfter_of_runAndFinish run
  | tick run =>
    rw [tick_eq] at run
    exact failedAfter_of_runAndFinish run
  | runTicks run =>
    rw [runTicks_eq] at run
    exact failedAfter_of_runAndFinish run
  | run run => exact failedAfter_of_run run

def strayReturn : Emulator :=
  (session.1.performAll [.clearBreakpoints, .writeBytes 0x206 [0x00, 0xEE]]).2

/-- A return to nowhere in the third step of a run. -/
theorem fault_atomic_strayReturn : ∃ fault middle left i,
    strayReturn.runSteps 10 = (.error fault, left) ∧ fault.cause = .stackUnderflow ∧
      strayReturn.FailedAfter 2 fault middle left ∧
        middle.interpreter.unasked.step = (.error fault, i) ∧
          middle.interpreter.unasked.Untouched i := by
  have facts : (strayReturn.runSteps 10).1.toOption = none ∧
      (strayReturn.runSteps 10).2.totalSteps = strayReturn.totalSteps + 2 ∧
      ((strayReturn.runSteps 10).2.lastFault.map (·.cause)) = some .stackUnderflow := by
    decide +kernel
  match run : strayReturn.runSteps 10 with
  | (outcome, left) =>
    rw [run] at facts
    obtain ⟨failed, steps, cause⟩ := facts
    obtain ⟨fault, rfl⟩ := exists_eq_error_of_toOption failed
    obtain ⟨k, middle, after⟩ := fault_atomic.2.1 strayReturn left fault (.runSteps run)
    have total := after.totalSteps
    dsimp only at steps cause
    obtain rfl : k = 2 := by omega
    rw [after.lastFault] at cause
    have third : middle.interpreter.unasked.step = (.error fault, _) := Prod.ext after.next rfl
    have untouched := fault_atomic.1 _ _ fault third
    exact ⟨fault, middle, left, _, rfl, Option.some.inj cause, after, third, untouched⟩

end Emulator

end Chip8
