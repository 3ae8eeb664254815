import Chip8.Proofs.DebuggedRun

/-! Runs of an emulator without breakpoints and watchpoints.

Such a run stops for nothing, so it comes to the states of the machine on its own.
-/

set_option autoImplicit false

namespace Chip8

namespace Debugger

variable {size : Nat}

variable {d : Debugger} {states : Nat → Except Fault (Machine size)} {k : Nat}

theorem not_stopsBefore_of_empty (clear : d.breakpoints = .empty) : ¬ d.StopsBefore states k := by
  rintro ⟨m, reached, active, member, unarmed⟩
  rw [clear] at member
  exact AddressSet.not_mem_empty _ member

theorem not_writesWatched_of_empty (clear : d.watchpoints = .empty) :
    ¬ d.WritesWatched states k := by
  rintro ⟨m, n, stores, reached, moved, s, member, watched⟩
  have watched : (s.address : Int) ∈ d.watchpoints := watched
  rw [clear] at watched
  exact AddressSet.not_mem_empty _ watched

end Debugger

namespace Emulator

variable {e : Emulator}

/-- The machine, counters apart, after some steps of a run without breakpoints and watchpoints, or
the fault that ends it. -/
def unbroken (e : Emulator) (steps : Nat) : Except Fault (Machine memorySize) :=
  match e.clearBreakpoints.runSteps steps with
  | (.error fault, _) => .error fault
  | (.ok _, left) => .ok left.machine.bare

theorem Ready.clearBreakpoints (ready : e.Ready) : e.clearBreakpoints.Ready :=
  ready.onDebugger Debugger.clearAll

/-- A run that nothing can stop does all its steps, or fails. -/
theorem Ready.runSteps_clearBreakpoints (ready : e.Ready) (steps : Nat) :
    match e.machine.bare.after steps with
    | .error fault => ∃ left, e.clearBreakpoints.runSteps steps = (.error fault, left)
    | .ok m => ∃ left, e.clearBreakpoints.runSteps steps =
        (.ok ⟨.stepLimit m.processor.pc, s!"Reached max steps ({(steps : Int)})"⟩, left) ∧
          left.machine.bare = m ∧ left.totalSteps = e.totalSteps + steps := by
  obtain ⟨halt, ran, i, way⟩ := e.clearBreakpoints.interpreter.exists_ran steps
  -- With no breakpoint and no watchpoint there is nothing to stop at.
  cases Interpreter.Ready.halted ready.clearBreakpoints way with
  | completed undisturbed reached =>
    have same : e.machine.bare.after steps = .ok i.machine.bare := reached
    rw [same]
    exact ⟨_, runSteps_completed steps way, rfl, rfl⟩
  | vetoed before undisturbed stops reached =>
    exact absurd stops (Debugger.not_stopsBefore_of_empty rfl)
  | requested before undisturbed free hits reached event =>
    exact absurd hits.writesWatched (Debugger.not_writesWatched_of_empty rfl)
  | failed before undisturbed reached failed unchecked =>
    have same : e.machine.bare.after steps = .error _ :=
      Machine.after_of_failed reached failed before
    rw [same]
    exact ⟨_, runSteps_failed steps way⟩

/-- A run that nothing stops comes to the states of the machine on its own. -/
theorem Ready.unbroken_eq (ready : e.Ready) : e.unbroken = e.machine.bare.after := by
  funext steps
  have run := ready.runSteps_clearBreakpoints steps
  unfold unbroken
  cases reached : e.machine.bare.after steps with
  | error fault =>
    rw [reached] at run
    obtain ⟨left, run⟩ := run
    rw [run]
  | ok m =>
    rw [reached] at run
    obtain ⟨left, run, same, -⟩ := run
    rw [run]
    exact congrArg Except.ok same

end Emulator

end Chip8
