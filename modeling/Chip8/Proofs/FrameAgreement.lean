import Mathlib.Data.List.Forall2
import Chip8.Proofs.Arrival
import Chip8.Proofs.FaultAtomicity

/-! Frames at a fixed rate, of an emulator and of its interpreter by itself.

Both run the steps of a frame and then one timer event. The interpreter stops only where a hook
keeps an instruction from running; the emulator also takes requests to stop, counts what it does and
keeps faults. With neither breakpoints nor watchpoints the two come to the same, frame by frame and
however a frame ends.
-/

set_option autoImplicit false

namespace Chip8

variable {σ : Type} {size : Nat}

namespace Interpreter

/-! ### How a frame goes -/

inductive Walked : Interpreter σ size → Nat → Interpreter σ size → Prop where
  | here {i : Interpreter σ size} : Walked i 0 i
  | step {i j k : Interpreter σ size} {count : Nat} : i.step = (.ok true, j) →
      Walked j count k → Walked i (count + 1) k

/-- A timer event: each timer that is not zero counts down by one, and all else is as it was. -/
structure CountsDown (i j : Interpreter σ size) : Prop where
  delay : j.machine.processor.delay.toNat = i.machine.processor.delay.toNat - 1
  sound : j.machine.processor.sound.toNat = i.machine.processor.sound.toNat - 1
  rest : j = i.onProcessor fun p =>
    { p with delay := j.machine.processor.delay, sound := j.machine.processor.sound }

inductive Frame (i : Interpreter σ size) (steps : Nat) :
    Except Fault Bool → Nat → Interpreter σ size → Prop where
  -- The timer event comes after all steps.
  | completed {last left : Interpreter σ size} : Walked i steps last → CountsDown last left →
      Frame i steps (.ok true) steps left
  -- The timers are those that the steps left which ran.
  | failed {ran : Nat} {fault : Fault} {last left : Interpreter σ size} (before : ran < steps)
      (walked : Walked i ran last) (failed : last.step = (.error fault, left))
      (delay : left.machine.processor.delay = last.machine.processor.delay)
      (sound : left.machine.processor.sound = last.machine.processor.sound) :
      Frame i steps (.error fault) ran left

/-- Frames one after the other, also after one that failed; the results are in that order. -/
def frames (steps : Nat) : (count : Nat) → Interpreter σ size →
    List (Except Fault Bool) × Interpreter σ size
  | 0, i => ([], i)
  | count + 1, i =>
    let (result, i) := i.frame steps
    let (results, i) := frames steps count i
    (result :: results, i)

inductive Played (steps : Nat) :
    Interpreter σ size → List (Except Fault Bool) → Nat → Interpreter σ size → Prop where
  | nothing {i : Interpreter σ size} : Played steps i [] 0 i
  | frame {i j k : Interpreter σ size} {result : Except Fault Bool}
      {results : List (Except Fault Bool)} {ran more : Nat} : Frame i steps result ran j →
      Played steps j results more k → Played steps i (result :: results) (ran + more) k

variable {i j k : Interpreter σ size} {steps count : Nat} {halt : Halt}

theorem Walked.frame_add (walked : Walked i count j) (steps : Nat) :
    i.frame (count + steps) = j.frame steps := by
  induction walked with
  | here => rw [Nat.zero_add]
  | step step rest ih =>
    rw [Nat.add_right_comm, frame, step]
    exact ih

theorem frame_of_walked (walked : Walked i steps j) : i.frame steps = (.ok true, j.countDown) :=
  walked.frame_add 0

theorem frame_of_failed {fault : Fault} (walked : Walked i count j) (before : count < steps)
    (failed : j.step = (.error fault, k)) : i.frame steps = (.error fault, k) := by
  obtain ⟨rest, rfl⟩ := Nat.exists_eq_add_of_lt before
  rw [Nat.add_assoc, walked.frame_add, frame, failed]

theorem countsDown_countDown (i : Interpreter σ size) : CountsDown i i.countDown where
  delay := Processor.toNat_countDown i.machine.processor.delay
  sound := Processor.toNat_countDown i.machine.processor.sound
  rest := rfl

/-- A step that fails leaves the timers as they were. -/
theorem frame_failed {fault : Fault} (before : count < steps) (walked : Walked i count j)
    (failed : j.step = (.error fault, k)) : Frame i steps (.error fault) count k := by
  have processor := (untouched_of_failed failed).processor
  exact .failed before walked failed (by rw [processor]) (by rw [processor])

/-- The steps of a run that does all of them. -/
theorem Ran.walked (way : Ran i steps halt count j) (completed : halt = .completed) :
    count = steps ∧ Walked i count j := by
  induction way with
  | completed => exact ⟨rfl, .here⟩
  | failed | vetoed | requested => cases completed
  | more step quiet rest ih =>
    obtain ⟨rfl, walked⟩ := ih completed
    exact ⟨rfl, .step step walked⟩

end Interpreter

/-! ### Nothing to stop at -/

namespace Interpreter

variable {i j : Interpreter Debugger size} {steps count : Nat} {halt : Halt}

structure Unhindered (i : Interpreter Debugger size) : Prop where
  ready : i.Ready
  points : i.observer.points = (.empty, .empty)

theorem Unhindered.ran (free : i.Unhindered) (way : Ran i steps halt count j) : j.Unhindered where
  ready := free.ready.ran way
  points := (way.points free.ready.hooks).trans free.points

theorem Unhindered.countDown (free : i.Unhindered) : i.countDown.Unhindered where
  ready := free.ready.countDown
  points := free.points

/-- Such a run does all its steps, or fails. -/
theorem Unhindered.ends (free : i.Unhindered) (way : Ran i steps halt count j) :
    halt = .completed ∨ ∃ fault, halt = .failed fault ∧ count < steps := by
  obtain ⟨breakpoints, watchpoints⟩ := Prod.mk.inj free.points
  cases free.ready.halted way with
  | completed undisturbed reached => exact .inl rfl
  | vetoed before undisturbed stops reached =>
    exact absurd stops (Debugger.not_stopsBefore_of_empty breakpoints)
  | requested before undisturbed unstopped hits reached event =>
    exact absurd hits.writesWatched (Debugger.not_writesWatched_of_empty watchpoints)
  | failed before undisturbed reached failed unchecked => exact .inr ⟨_, rfl, before⟩

end Interpreter

/-! ### Frames of an emulator -/

namespace Emulator

open Interpreter (Frame Played Ran Unhindered)

variable {e : Emulator}

def ticks : (count : Nat) → Emulator → List (Except Fault StopEvent) × Emulator
  | 0, e => ([], e)
  | count + 1, e =>
    let (outcome, e) := e.tick
    let (outcomes, e) := ticks count e
    (outcome :: outcomes, e)

inductive Reports : Except Fault StopEvent → Except Fault Bool → Prop where
  | completed (pc : Int) : Reports (.ok { reason := .frame pc }) (.ok true)
  | failed (fault : Fault) : Reports (.error fault) (.error fault)

structure Agrees (e : Emulator) (outcome : Except Fault StopEvent) (left : Emulator)
    (result : Except Fault Bool) (ran : Nat) : Prop where
  goes : Frame e.interpreter e.settings.frameSteps.toNat result ran left.interpreter
  frame : e.interpreter.frame e.settings.frameSteps.toNat = (result, left.interpreter)
  reports : Reports outcome result
  free : left.interpreter.Unhindered
  settings : left.settings = e.settings
  totalSteps : left.totalSteps = e.totalSteps + ran
  totalTimerEvents : left.totalTimerEvents = e.totalTimerEvents + if result.isOk then 1 else 0

theorem tick_agrees (free : e.interpreter.Unhindered) :
    ∃ outcome left result ran, e.tick = (outcome, left) ∧ e.Agrees outcome left result ran := by
  obtain ⟨halt, ran, i, way⟩ := e.interpreter.exists_ran e.settings.frameSteps.toNat
  rw [tick_eq, runAndFinish]
  -- With nothing set to stop it, a run ends with all its steps or with a fault.
  rcases free.ends way with rfl | ⟨fault, rfl, before⟩
  · obtain ⟨rfl, walked⟩ := way.walked rfl
    rw [runUpTo_completed way]
    refine ⟨_, _, .ok true, e.settings.frameSteps.toNat, rfl, ?_⟩
    exact {
      goes := .completed walked i.countsDown_countDown
      frame := Interpreter.frame_of_walked walked
      reports := .completed _
      free := (free.ran way).countDown
      settings := rfl
      totalSteps := rfl
      totalTimerEvents := rfl }
  · obtain ⟨last, first, failed⟩ := way.before_fault
    have walked := (first.walked rfl).2
    rw [runUpTo_failed way]
    refine ⟨_, _, .error fault, ran, rfl, ?_⟩
    exact {
      goes := Interpreter.frame_failed before walked failed
      frame := Interpreter.frame_of_failed walked before failed
      reports := .failed fault
      free := free.ran way
      settings := rfl
      totalSteps := rfl
      totalTimerEvents := rfl }

/-- Any number of frames of an emulator, next to those of its interpreter. -/
structure AgreesAll (e : Emulator) (count : Nat) (results : List (Except Fault Bool)) (ran : Nat) :
    Prop where
  -- What the interpreter comes to, with its processor, memory and counters, screen, cache and
  -- random bytes, is the same.
  frames : e.interpreter.frames e.settings.frameSteps.toNat count =
    (results, (e.ticks count).2.interpreter)
  reports : List.Forall₂ Reports (e.ticks count).1 results
  played : Played e.settings.frameSteps.toNat e.interpreter results ran
    (e.ticks count).2.interpreter
  totalSteps : (e.ticks count).2.totalSteps = e.totalSteps + ran
  totalTimerEvents : (e.ticks count).2.totalTimerEvents =
    e.totalTimerEvents + results.countP Except.isOk

theorem agreesAll (free : e.interpreter.Unhindered) (count : Nat) :
    ∃ results ran, e.AgreesAll count results ran := by
  induction count generalizing e with
  | zero => exact ⟨[], 0, rfl, .nil, .nothing, rfl, rfl⟩
  | succ count ih =>
    obtain ⟨outcome, left, result, ran, tick, first⟩ := tick_agrees free
    obtain ⟨results, more, rest⟩ := ih first.free
    have ticks : e.ticks (count + 1) = (outcome :: (left.ticks count).1, (left.ticks count).2) := by
      rw [Emulator.ticks, tick]
    have frames := rest.frames
    have played := rest.played
    rw [first.settings] at frames played
    refine ⟨result :: results, ran + more, ?_⟩
    exact {
      frames := by
        rw [ticks, Interpreter.frames, first.frame]
        simp only [frames]
      reports := by
        rw [ticks]
        exact .cons first.reports rest.reports
      played := by
        rw [ticks]
        exact .frame first.goes played
      totalSteps := by
        rw [ticks, rest.totalSteps, first.totalSteps, Nat.add_assoc]
      totalTimerEvents := by
        rw [ticks, rest.totalTimerEvents, first.totalTimerEvents, List.countP_cons]
        omega }

/-- The frames of an emulator without breakpoints and watchpoints are those of its interpreter, any
number of them and whatever number of steps they have. Each completes, with a timer event after its
steps, or fails at the same step with the same fault and no timer event. On top of that, the
emulator counts the steps that ran and the frames that completed. -/
theorem ticks_agree (e : Emulator) (reachable : e.Reachable)
    (breakpoints : e.debugger.breakpoints = .empty) (watchpoints : e.debugger.watchpoints = .empty)
    (count : Nat) : ∃ results ran, e.AgreesAll count results ran := by
  refine agreesAll ⟨reachable.ready, ?_⟩ count
  exact Prod.ext breakpoints watchpoints

def startTimers : List UInt8 :=
  [0x60, 0x05, 0xF0, 0x15, 0xF0, 0x18] ++ (List.replicate 9 [0x71, 0x01]).flatten ++ [0xFF, 0xFF]

def timed : { e : Emulator // e.Reachable } :=
  ⟨_, reachable_usual.performAll [.load startTimers "timers"]⟩

/-- Two frames of ten steps, of which the second fails at its third step. -/
theorem ticks_agree_secondFails :
    timed.1.Reachable ∧ timed.1.debugger.breakpoints = .empty ∧
      timed.1.debugger.watchpoints = .empty ∧
      (timed.1.ticks 2).1.map Except.isOk = [true, false] ∧
      (timed.1.ticks 2).2.processor.delay = 4 ∧
      (timed.1.ticks 2).2.totalTimerEvents = 1 ∧
      ∃ results, timed.1.AgreesAll 2 results 12 := by
  have facts : timed.1.debugger.breakpoints = .empty ∧ timed.1.debugger.watchpoints = .empty ∧
      timed.1.totalSteps = 0 ∧ (timed.1.ticks 2).1.map Except.isOk = [true, false] ∧
      (timed.1.ticks 2).2.processor.delay = 4 ∧ (timed.1.ticks 2).2.totalTimerEvents = 1 ∧
      (timed.1.ticks 2).2.totalSteps = 12 := by
    decide +kernel
  obtain ⟨breakpoints, watchpoints, start, outcomes, delay, events, steps⟩ := facts
  obtain ⟨results, ran, agrees⟩ := ticks_agree timed.1 timed.2 breakpoints watchpoints 2
  have total := agrees.totalSteps
  obtain rfl : ran = 12 := by omega
  exact ⟨timed.2, breakpoints, watchpoints, outcomes, delay, events, results, agrees⟩

end Emulator

end Chip8
