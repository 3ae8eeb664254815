import Chip8.Proofs.ControlFlow
import Chip8.Proofs.Request

/-! What a request makes of the machine.

Some requests run the interpreter, and timer events may follow the run. A reset starts the processor
over. All other requests leave the processor and the random bytes alone, and but for the one that
takes its buffer, the screen. What holds of every request is proved by going through these cases.
-/

set_option autoImplicit false

namespace Chip8

open Interpreter (Ran)

namespace Emulator

variable {e left : Emulator} {request : Request} {i : Interpreter Debugger memorySize} {steps : Nat}

/-! ### Requests that run -/

def armed (e : Emulator) (address : Int) : Emulator :=
  if address ∈ e.debugger.breakpoints then e else e.addBreakpoint address

/-- The instructions that a request executes to their ends, in order. -/
def executed (e : Emulator) : Request → List Instruction
  | .step => e.interpreter.unasked.executed?.toList
  | .tick => e.interpreter.executed e.settings.frameSteps.toNat
  | .run elapsed =>
    match e.clock.advance elapsed with
    | .error _ => []
    | .ok (ticks, _) => e.interpreter.executed ticks.steps
  | .runTicks ticks => e.interpreter.executed ticks.steps
  | .runSteps limit => e.interpreter.executed limit.toNat
  | .runUntil address limit => (e.armed address).interpreter.executed limit.toNat
  | _ => []

/-- The interpreter that a request runs and the most steps that it runs, if it runs one. -/
def runOf? (e : Emulator) : Request → Option (Interpreter Debugger memorySize × Nat)
  | .step => some (e.interpreter.unasked, 1)
  | .tick => some (e.interpreter, e.settings.frameSteps.toNat)
  | .run elapsed =>
    match e.clock.advance elapsed with
    | .error _ => none
    | .ok (ticks, _) => some (e.interpreter, ticks.steps)
  | .runTicks ticks => some (e.interpreter, ticks.steps)
  | .runSteps limit => some (e.interpreter, limit.toNat)
  | .runUntil address limit => some ((e.armed address).interpreter, limit.toNat)
  | _ => none

theorem executed_eq (e : Emulator) (request : Request) :
    e.executed request =
      match e.runOf? request with
      | some (i, steps) => i.executed steps
      | none => [] := by
  cases request with
  | step => exact (Interpreter.executed_one _).symm
  | run elapsed =>
    simp only [executed, runOf?]
    cases e.clock.advance elapsed with
    | error error => rfl
    | ok due => rfl
  | _ => rfl

theorem start_of_runs (runs : e.runOf? request = some (i, steps)) :
    i = e.interpreter ∨ i = e.interpreter.unasked ∨ ∃ address, i = (e.armed address).interpreter := by
  cases request with
  | step =>
    cases runs
    exact .inr (.inl rfl)
  | run elapsed =>
    simp only [runOf?] at runs
    cases advanced : e.clock.advance elapsed with
    | error error =>
      rw [advanced] at runs
      cases runs
    | ok due =>
      rw [advanced] at runs
      cases runs
      exact .inl rfl
  | runUntil address limit =>
    cases runs
    exact .inr (.inr ⟨address, rfl⟩)
  | tick | runTicks | runSteps =>
    cases runs
    exact .inl rfl
  | _ => cases runs

theorem machine_armed (e : Emulator) (address : Int) : (e.armed address).machine = e.machine := by
  unfold armed
  split
  · rfl
  · rfl

theorem machine_of_runs (runs : e.runOf? request = some (i, steps)) : i.machine = e.machine := by
  rcases start_of_runs runs with rfl | rfl | ⟨address, rfl⟩
  · rfl
  · rfl
  · exact e.machine_armed address

theorem Ready.armed (ready : e.Ready) (address : Int) : (e.armed address).Ready := by
  unfold Emulator.armed
  split
  · exact ready
  · exact ready.onDebugger (·.addBreakpoint address)

theorem Ready.coherent_of_runs (ready : e.Ready) (runs : e.runOf? request = some (i, steps)) :
    i.Coherent := by
  rcases start_of_runs runs with rfl | rfl | ⟨address, rfl⟩
  · exact ready.coherent
  · exact ready.coherent.of_bytes_eq rfl rfl
  · exact (ready.armed address).coherent

/-! ### The three cases -/

def LeadsTo (i : Interpreter Debugger memorySize) (steps : Nat) (m : Machine memorySize) : Prop :=
  ∃ (halt : Halt) (count timers : Nat) (j : Interpreter Debugger memorySize),
    Ran i steps halt count j ∧
      m = { j.machine with processor := timers.repeat Processor.countDown j.machine.processor }

/-- The parts that only runs and resets change. -/
def core (e : Emulator) : Processor × Random :=
  (e.processor, e.machine.random)

inductive Performed (e : Emulator) : Request → Emulator → Prop where
  | ran {request : Request} {left : Emulator} {i : Interpreter Debugger memorySize} {steps : Nat} :
      e.runOf? request = some (i, steps) → LeadsTo i steps left.machine → Performed e request left
  | reset : Performed e .reset e.reset
  | still {request : Request} {left : Emulator} : e.runOf? request = none → left.core = e.core →
      Performed e request left

theorem machine_applyTimerEvents (e : Emulator) (count : Nat) :
    (e.applyTimerEvents count).machine =
      { e.machine with processor := count.repeat Processor.countDown e.processor } := by
  change (count.repeat Interpreter.countDown e.interpreter).machine = _
  rw [Interpreter.repeat_countDown_eq]
  rfl

theorem leadsTo_runAndFinish (e : Emulator) (count : Int) (finish : Emulator → StopEvent × Emulator)
    (finished : ∀ left : Emulator, ∃ timers : Nat, (finish left).2.machine =
      { left.machine with processor := timers.repeat Processor.countDown left.processor }) :
    LeadsTo e.interpreter count.toNat (e.runAndFinish count finish).2.machine := by
  obtain ⟨halt, ran, way⟩ := e.interpreter_runUpTo count
  unfold runAndFinish
  match run : e.runUpTo count with
  | (.error fault, left) | (.ok (some event), left) =>
    rw [run] at way
    exact ⟨halt, ran, 0, _, way, rfl⟩
  | (.ok none, left) =>
    rw [run] at way
    obtain ⟨timers, last⟩ := finished left
    exact ⟨halt, ran, timers, _, way, last⟩

theorem leadsTo_runSteps (e : Emulator) (limit : Int) :
    LeadsTo e.interpreter limit.toNat (e.runSteps limit).2.machine := by
  rw [runSteps_eq]
  apply leadsTo_runAndFinish
  intro left
  exact ⟨0, rfl⟩

theorem leadsTo_runTicks (e : Emulator) (ticks : Ticks) :
    LeadsTo e.interpreter ticks.steps (e.runTicks ticks).2.machine := by
  rw [runTicks_eq]
  apply e.leadsTo_runAndFinish ticks.steps
  intro left
  exact ⟨ticks.timerEvents, left.machine_applyTimerEvents _⟩

theorem leadsTo_tick (e : Emulator) :
    LeadsTo e.interpreter e.settings.frameSteps.toNat e.tick.2.machine := by
  rw [tick_eq]
  apply leadsTo_runAndFinish
  intro left
  exact ⟨1, left.machine_applyTimerEvents 1⟩

theorem leadsTo_step (e : Emulator) : LeadsTo e.interpreter.unasked 1 e.step.2.machine := by
  cases step : e.interpreter.unasked.step with
  | mk result i =>
    cases result with
    | error fault =>
      rw [step_failed step]
      exact ⟨_, _, 0, i, .failed step, rfl⟩
    | ok go =>
      obtain rfl := Interpreter.unasked_step step
      rw [step_ran step]
      cases requested : i.stopRequested with
      | true => exact ⟨_, _, 0, _, .requested step requested, rfl⟩
      | false => exact ⟨_, _, 0, i, .more step requested .completed, rfl⟩

theorem leadsTo_runUntil (e : Emulator) (address limit : Int) :
    LeadsTo (e.armed address).interpreter limit.toNat (e.runUntil address limit).2.machine := by
  simp only [armed, Emulator.runUntil]
  split
  · rw [snd_reached]
    exact e.leadsTo_runSteps limit
  · have leads := (e.onDebugger (·.addBreakpoint address)).leadsTo_runSteps limit
    rw [← snd_reached address] at leads
    exact leads

theorem performed_run (e : Emulator) (elapsed : Quantity) :
    Performed e (.run elapsed) (e.run elapsed).2 := by
  cases advanced : e.clock.advance elapsed with
  | error error =>
    refine .still ?_ ?_
    · simp only [runOf?, advanced]
    · simp only [Emulator.run, advanced]
  | ok due =>
    obtain ⟨ticks, clock⟩ := due
    have runs : e.runOf? (.run elapsed) = some (e.interpreter, ticks.steps) := by
      simp only [runOf?, advanced]
    have leads := leadsTo_runTicks { e with clock } ticks
    apply Performed.ran runs
    simp only [Emulator.run, advanced]
    cases run : { e with clock }.runTicks ticks with
    | mk result left =>
      rw [run] at leads
      cases result with
      | error fault => exact leads
      | ok event => exact leads

/-! ### Requests that run nothing -/

def Rests (e left : Emulator) : Prop :=
  ∃ memory keypad, left.machine = { e.machine with memory, keypad }

theorem Rests.of_machine_eq (same : left.machine = e.machine) : Rests e left :=
  ⟨e.machine.memory, e.machine.keypad, same⟩

theorem Rests.core_eq (rests : Rests e left) : left.core = e.core := by
  obtain ⟨memory, keypad, same⟩ := rests
  have parts := congrArg (fun m : Machine memorySize => (m.processor, m.random)) same
  exact parts

theorem Rests.screen_eq (rests : Rests e left) : left.machine.screen = e.machine.screen := by
  obtain ⟨memory, keypad, same⟩ := rests
  rw [same]

theorem rests_settle {ε α : Type} (refuse : ε → Refusal) {result : Except ε α}
    {serve : α → Answer × Emulator}
    (served : ∀ value, result = .ok value → Rests e (serve value).2) :
    Rests e (e.settle refuse (result.map serve)).2 := by
  cases result with
  | error error => exact .of_machine_eq rfl
  | ok value => exact served value rfl

theorem rests_loadProgram {data : List UInt8} {name : String}
    (loaded : e.loadProgram data name = .ok left) : Rests e left := by
  obtain ⟨-, rfl⟩ := loadProgram_ok loaded
  exact ⟨_, _, rfl⟩

theorem rests_loadRom {path : String} {status : PathStatus}
    (loaded : e.loadRom path status = .ok left) : Rests e left := by
  obtain ⟨data, program, given, rfl⟩ := loadRom_ok loaded
  obtain ⟨memory, keypad, same⟩ := rests_loadProgram given
  exact ⟨memory, keypad, same⟩

theorem rests_writeBytes {address : Int} {data : List UInt8}
    (changed : e.writeBytes address data = .ok left) : Rests e left := by
  obtain ⟨memory, -, rfl⟩ := exists_of_map_eq_ok changed
  exact ⟨_, _, rfl⟩

/-- A request that runs nothing changes memory and keys at most, unless it is to start over or to mark
the screen as shown. -/
theorem rests (silent : e.runOf? request = none) (started : request ≠ .reset)
    (shown : request ≠ .takePixels) : Rests e (e.perform request).2 := by
  cases request with
  | reset => exact absurd rfl started
  | takePixels => exact absurd rfl shown
  | step | tick | runTicks | runSteps | runUntil => cases silent
  | run elapsed =>
    -- The clock has refused the time; otherwise steps would have been run.
    rw [perform, snd_conclude]
    simp only [runOf?, Emulator.run] at silent ⊢
    cases advanced : e.clock.advance elapsed with
    | error error => exact .of_machine_eq rfl
    | ok due =>
      rw [advanced] at silent
      cases silent
  | load data name => exact rests_settle _ fun left => rests_loadProgram
  | loadRom path status => exact rests_settle _ fun left => rests_loadRom
  | pressKey name =>
    refine rests_settle _ fun left pressed => ?_
    obtain ⟨k, -, rfl⟩ := exists_of_map_eq_ok pressed
    exact ⟨_, _, rfl⟩
  | releaseKey name =>
    refine rests_settle _ fun left released => ?_
    obtain ⟨k, -, rfl⟩ := exists_of_map_eq_ok released
    exact ⟨_, _, rfl⟩
  | releaseAllKeys => exact ⟨_, _, rfl⟩
  | readByte address =>
    refine rests_settle _ fun served looked => ?_
    obtain ⟨read, -, rfl⟩ := exists_of_map_eq_ok looked
    exact ⟨_, _, rfl⟩
  | readBytes address count =>
    refine rests_settle _ fun served looked => ?_
    obtain ⟨read, -, rfl⟩ := exists_of_map_eq_ok looked
    exact ⟨_, _, rfl⟩
  | writeByte address value =>
    refine rests_settle _ fun left changed => ?_
    rw [writeByte_eq_writeBytes] at changed
    exact rests_writeBytes changed
  | writeBytes address data => exact rests_settle _ fun left => rests_writeBytes
  | setFrequency frequency =>
    refine rests_settle _ fun left set => ?_
    obtain ⟨clock, -, rfl⟩ := exists_of_map_eq_ok set
    exact .of_machine_eq rfl
  | render scale => exact rests_settle _ fun picture rendered => .of_machine_eq rfl
  | disassemble address count => exact rests_settle _ fun lines listed => .of_machine_eq rfl
  | _ => exact .of_machine_eq rfl

/-! ### All requests -/

/-- Every request ends in one of these ways. -/
theorem performed (e : Emulator) (request : Request) :
    Performed e request (e.perform request).2 := by
  cases request with
  | reset => exact .reset
  | step =>
    rw [perform, snd_conclude]
    exact .ran rfl e.leadsTo_step
  | tick =>
    rw [perform, snd_conclude]
    exact .ran rfl e.leadsTo_tick
  | run elapsed =>
    rw [perform, snd_conclude]
    exact e.performed_run elapsed
  | runTicks ticks =>
    rw [perform, snd_conclude]
    exact .ran rfl (e.leadsTo_runTicks ticks)
  | runSteps limit =>
    rw [perform, snd_conclude]
    exact .ran rfl (e.leadsTo_runSteps limit)
  | runUntil address limit =>
    rw [perform, snd_conclude]
    exact .ran rfl (e.leadsTo_runUntil address limit)
  | takePixels => exact .still rfl rfl
  | _ =>
    refine .still rfl (Rests.core_eq ?_)
    exact rests rfl nofun nofun

theorem Performed.leadsTo (way : Performed e request left)
    (runs : e.runOf? request = some (i, steps)) : LeadsTo i steps left.machine := by
  cases way with
  | ran started leads =>
    rw [runs] at started
    cases started
    exact leads
  | reset => cases runs
  | still silent kept =>
    rw [runs] at silent
    cases silent

end Emulator

end Chip8
