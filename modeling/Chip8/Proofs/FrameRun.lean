import Chip8.CommandLine.Run
import Chip8.Proofs.Stopping

/-! Runs by frames of a fixed number of steps.

Behind the last step of each frame comes a timer event. The states that a machine comes to in this
way by itself tell how a run of frames ends: before the first instruction with a breakpoint, at the
first step that fails, or when the frames are over.
-/

set_option autoImplicit false

namespace Chip8

variable {size : Nat}

/-! ### The machine on its own, by frames -/

namespace Machine

def countDown (m : Machine size) : Machine size :=
  { m with processor := m.processor.countDown }

/-- The machine after so many steps of a run by frames, if none of them fails. -/
def framed (perFrame : Nat) (m : Machine size) : (steps : Nat) → Except Fault (Machine size)
  | 0 => .ok m
  | steps + 1 =>
    match m.framed perFrame steps with
    | .error fault => .error fault
    | .ok n =>
      match n.advance with
      | .error fault => .error fault
      | .ok (n, _) => .ok (if (steps + 1) % perFrame = 0 then n.countDown else n)

variable {perFrame : Nat} {m n last : Machine size}

theorem framed_of_failed {k steps : Nat} {fault : Fault} (reached : m.framed perFrame k = .ok n)
    (failed : n.advance = .error fault) (beyond : k < steps) :
    m.framed perFrame steps = .error fault := by
  induction beyond with
  | refl => rw [framed, reached]; simp only [failed]
  | step beyond ih => rw [framed, ih]

/-- After a step that fails no state is reached. -/
theorem le_of_framed {k steps : Nat} {fault : Fault} (reached : m.framed perFrame k = .ok n)
    (failed : n.advance = .error fault) (later : m.framed perFrame steps = .ok last) :
    steps ≤ k := by
  refine Nat.le_of_not_lt fun beyond => ?_
  rw [framed_of_failed reached failed beyond] at later
  cases later

theorem after_last (m : Machine size) (steps : Nat) :
    m.after (steps + 1) =
      match m.after steps with
      | .error fault => .error fault
      | .ok n =>
        match n.advance with
        | .error fault => .error fault
        | .ok (n, _) => .ok n := by
  induction steps generalizing m with
  | zero => rfl
  | succ steps ih =>
    cases moved : m.advance with
    | error fault => simp only [after_succ_of_error moved]
    | ok result =>
      obtain ⟨n, stores⟩ := result
      rw [after_succ moved, after_succ moved, ih]

/-- Within the first frame there is no timer event. -/
theorem framed_of_lt {steps : Nat} (within : steps < perFrame) :
    m.framed perFrame steps = m.after steps := by
  induction steps with
  | zero => rfl
  | succ steps ih =>
    have between : (steps + 1) % perFrame ≠ 0 := by
      rw [Nat.mod_eq_of_lt within]
      exact Nat.succ_ne_zero steps
    simp only [framed, after_last, ih (Nat.lt_of_succ_lt within), if_neg between]

/-- Behind the first frame lies a run of its own. -/
theorem framed_add (positive : 0 < perFrame) (reached : m.after perFrame = .ok n) (steps : Nat) :
    m.framed perFrame (perFrame + steps) = n.countDown.framed perFrame steps := by
  induction steps with
  | zero =>
    -- The timer event belongs to the last step of the frame.
    obtain ⟨before, rfl⟩ := Nat.exists_eq_add_of_lt positive
    rw [Nat.zero_add] at reached ⊢
    rw [after_last] at reached
    simp only [framed, framed_of_lt (Nat.lt_add_one before)]
    cases earlier : m.after before with
    | error fault =>
      rw [earlier] at reached
      cases reached
    | ok m' =>
      rw [earlier] at reached
      dsimp only at reached ⊢
      cases moved : m'.advance with
      | error fault =>
        rw [moved] at reached
        cases reached
      | ok result =>
        rw [moved] at reached
        cases reached
        simp only [Nat.mod_self, if_true]
  | succ steps ih =>
    rw [← Nat.add_assoc, framed, ih, framed, Nat.add_assoc, Nat.add_mod_left]

end Machine

/-! ### How a run by frames ends -/

/-- A run stops before the next step of a machine. What is no instruction is not stopped at. -/
structure Machine.Stops (m : Machine size) (breakpoints : Int → Prop) : Prop where
  active : m.processor.waiting = false
  member : breakpoints m.processor.pc
  found : ∃ decoded, m.decoded m.processor.pc = .ok decoded

inductive Ending (size : Nat) where
  | finished (last : Machine size)
  | stopped (last : Machine size)
  | failed (fault : Fault)

/-- A run of so many steps through some states, with some breakpoints, ends so. -/
inductive Ends (breakpoints : Int → Prop) (states : Nat → Except Fault (Machine size))
    (total : Nat) : Ending size → Prop where
  | finished {last : Machine size}
      (free : ∀ k < total, ∀ m, states k = .ok m → ¬ m.Stops breakpoints)
      (reached : states total = .ok last) : Ends breakpoints states total (.finished last)
  | stopped {last : Machine size} {k : Nat} (before : k < total)
      (free : ∀ j < k, ∀ m, states j = .ok m → ¬ m.Stops breakpoints)
      (reached : states k = .ok last) (stops : last.Stops breakpoints) :
      Ends breakpoints states total (.stopped last)
  | failed {fault : Fault} {m : Machine size} {k : Nat} (before : k < total)
      (free : ∀ j ≤ k, ∀ m, states j = .ok m → ¬ m.Stops breakpoints)
      (reached : states k = .ok m) (failed : m.advance = .error fault) :
      Ends breakpoints states total (.failed fault)

namespace Ends

variable {breakpoints : Int → Prop} {m n : Machine size} {perFrame total : Nat}
  {ending other : Ending size}

/-- A run ends in one way only. -/
theorem unique (first : Ends breakpoints (m.framed perFrame) total ending)
    (second : Ends breakpoints (m.framed perFrame) total other) : ending = other := by
  -- What stops the run or fails at a step does so whichever way the run is told.
  cases first with
  | finished free reached =>
    cases second with
    | finished free' reached' => rw [Except.ok.inj (reached.symm.trans reached')]
    | stopped before free' reached' stops => exact absurd stops (free _ before _ reached')
    | failed before free' reached' failed =>
      have := Machine.le_of_framed reached' failed reached
      omega
  | @stopped last k before free reached stops =>
    cases second with
    | finished free' reached' => exact absurd stops (free' k before _ reached)
    | @stopped last' k' before' free' reached' stops' =>
      have early : ¬ k' < k := fun earlier => free k' earlier _ reached' stops'
      have late : ¬ k < k' := fun later => free' k later _ reached stops
      obtain rfl : k = k' := by omega
      rw [Except.ok.inj (reached.symm.trans reached')]
    | failed before' free' reached' failed =>
      have within := Machine.le_of_framed reached' failed reached
      exact absurd stops (free' k within _ reached)
  | @failed fault m k before free reached failed =>
    cases second with
    | finished free' reached' =>
      have := Machine.le_of_framed reached failed reached'
      omega
    | stopped before' free' reached' stops =>
      have within := Machine.le_of_framed reached failed reached'
      exact absurd stops (free _ within _ reached')
    | @failed fault' m' k' before' free' reached' failed' =>
      have below := Machine.le_of_framed reached failed reached'
      have above := Machine.le_of_framed reached' failed' reached
      obtain rfl : k = k' := by omega
      obtain rfl := Except.ok.inj (reached.symm.trans reached')
      rw [Except.error.inj (failed.symm.trans failed')]

/-- A whole frame in front of a run. -/
theorem frame (positive : 0 < perFrame) (reached : m.after perFrame = .ok n)
    (calm : ∀ k < perFrame, ∀ s, m.after k = .ok s → ¬ s.Stops breakpoints)
    (rest : Ends breakpoints (n.countDown.framed perFrame) total ending) :
    Ends breakpoints (m.framed perFrame) (perFrame + total) ending := by
  have later (k : Nat) : m.framed perFrame (perFrame + k) = n.countDown.framed perFrame k :=
    Machine.framed_add positive reached k
  -- A step is one of the frame, or one of the run behind it.
  have free {count : Nat}
      (rest : ∀ k < count, ∀ s, n.countDown.framed perFrame k = .ok s → ¬ s.Stops breakpoints) :
      ∀ k < perFrame + count, ∀ s, m.framed perFrame k = .ok s → ¬ s.Stops breakpoints := by
    intro k within s state
    by_cases first : k < perFrame
    · rw [Machine.framed_of_lt first] at state
      exact calm k first s state
    · obtain ⟨k, rfl⟩ := Nat.exists_eq_add_of_le (Nat.le_of_not_lt first)
      rw [later] at state
      exact rest k (by omega) s state
  cases rest with
  | finished rest last => exact .finished (free rest) ((later total).trans last)
  | @stopped last k before rest there stops =>
    exact .stopped (by omega) (free rest) ((later k).trans there) stops
  | @failed fault s k before rest there failed =>
    have rest : ∀ j < k + 1, ∀ s, n.countDown.framed perFrame j = .ok s → ¬ s.Stops breakpoints :=
      fun j within => rest j (Nat.le_of_lt_succ within)
    exact .failed (by omega) (fun j within => free rest j (by omega)) ((later k).trans there) failed

end Ends

/-! ### Frames under a debugger -/

namespace Interpreter

variable {i j : Interpreter Debugger size}

/-- A run that does all its steps tells its debugger nothing, unless that lets a breakpoint pass. -/
theorem Ready.observer_completed (ready : i.Ready) (armed : i.observer.pass = none)
    {steps count : Nat} {halt : Halt} (way : Ran i steps halt count j) (completed : halt = .completed) :
    j.observer = i.observer := by
  induction way with
  | completed => rfl
  | failed | vetoed | requested => cases completed
  | @more i j k steps count halt step quiet rest ih =>
    have next : Ready j :=
      ⟨(hooks_step step).trans ready.hooks, (ready.coherent.step step).1, quiet⟩
    cases ready.debugged step with
    | passed moved free unwatched observer still =>
      have same : j.observer = i.observer := by
        rw [observer, Debugger.passing, Debugger.clearPass, ← armed, ite_self]
      exact (ih next (same ▸ armed) completed).trans same
    | hit moved free hit observer stop =>
      rw [quiet] at stop
      cases stop

end Interpreter

namespace Debugger

variable {d : Debugger} {states : Nat → Except Fault (Machine size)} {m : Machine size} {k : Nat}

theorem not_stops_of_not_stopsBefore (armed : d.pass = none) (free : ¬ d.StopsBefore states k)
    (reached : states k = .ok m) : ¬ m.Stops (· ∈ d.breakpoints) := by
  intro stops
  refine free ⟨m, reached, stops.active, stops.member, fun passes => ?_⟩
  rw [armed] at passes
  cases passes.1

theorem Undisturbed.free (armed : d.pass = none) {count : Nat} (calm : d.Undisturbed states count) :
    ∀ k < count, ∀ m, states k = .ok m → ¬ m.Stops (· ∈ d.breakpoints) :=
  fun k within _ reached => not_stops_of_not_stopsBefore armed (calm k within).1 reached

end Debugger

namespace Emulator

open CommandLine.Run (runFrames)

variable {e : Emulator}

inductive Told : Ending memorySize → Except RunError (Option StopEvent) × Emulator → Prop where
  | finished (left : Emulator) : Told (.finished left.machine.bare) (.ok none, left)
  | stopped (left : Emulator) : Told (.stopped left.machine.bare)
      (.ok (some { reason := .breakpoint left.processor.pc }), left)
  | failed (fault : Fault) (left : Emulator) : Told (.failed fault) (.error (.fault fault), left)

structure Armed (e : Emulator) : Prop where
  ready : e.Ready
  pass : e.debugger.pass = none
  watchpoints : e.debugger.watchpoints = .empty

inductive Framed (e : Emulator) (perFrame : Nat) : Except Fault StopEvent × Emulator → Prop where
  | through {left : Emulator} {n : Machine memorySize} {pc : Int} (ready : left.Ready)
      (debugger : left.debugger = e.debugger) (settings : left.settings = e.settings)
      (reached : e.machine.bare.after perFrame = .ok n) (machine : left.machine.bare = n.countDown)
      (calm : ∀ k < perFrame, ∀ m, e.machine.bare.after k = .ok m →
        ¬ m.Stops (· ∈ e.debugger.breakpoints)) :
      Framed e perFrame (.ok { reason := .frame pc }, left)
  | stopped {left : Emulator} {k : Nat} (before : k < perFrame)
      (calm : ∀ j < k, ∀ m, e.machine.bare.after j = .ok m →
        ¬ m.Stops (· ∈ e.debugger.breakpoints))
      (reached : e.machine.bare.after k = .ok left.machine.bare)
      (stops : left.machine.bare.Stops (· ∈ e.debugger.breakpoints)) :
      Framed e perFrame (.ok { reason := .breakpoint left.processor.pc }, left)
  | failed {left : Emulator} {fault : Fault} {m : Machine memorySize} {k : Nat}
      (before : k < perFrame)
      (calm : ∀ j ≤ k, ∀ m, e.machine.bare.after j = .ok m →
        ¬ m.Stops (· ∈ e.debugger.breakpoints))
      (reached : e.machine.bare.after k = .ok m) (failed : m.advance = .error fault) :
      Framed e perFrame (.error fault, left)

theorem Armed.tick (armed : e.Armed) {perFrame : Nat} (steps : e.settings.frameSteps = perFrame) :
    Framed e perFrame e.tick := by
  rw [tick_eq, steps, Emulator.runAndFinish]
  obtain ⟨halt, count, i, way, halted⟩ := armed.ready.halted perFrame
  have free {count : Nat} (calm : e.debugger.Undisturbed e.machine.bare.after count) :=
    calm.free armed.pass
  cases halted with
  | completed undisturbed reached =>
    rw [runUpTo_completed way]
    have ready : (e.afterSteps perFrame i).Ready := Interpreter.Ready.ran armed.ready way
    have debugger : i.observer = e.debugger :=
      armed.ready.observer_completed armed.pass way rfl
    exact .through (ready.applyTimerEvents 1) debugger rfl reached rfl (free undisturbed)
  | @vetoed count decoded before undisturbed stops reached active found pass event =>
    rw [runUpTo_vetoed way, event]
    have left : e.machine.bare.after count = .ok (e.afterSteps count i).stopped.machine.bare :=
      reached
    obtain ⟨m, same, -, member, -⟩ := stops
    obtain rfl := Except.ok.inj (reached.symm.trans same)
    exact .stopped before (free undisturbed) left ⟨active, member, decoded, found⟩
  | requested before undisturbed freed hits reached event =>
    exact absurd hits.writesWatched (Debugger.not_writesWatched_of_empty armed.watchpoints)
  | @failed count fault m before undisturbed reached failed unchecked =>
    rw [runUpTo_failed way]
    refine .failed before (fun j within s state stops => ?_) reached failed
    -- Where the step fails a breakpoint would stop the run, if there were an instruction to check.
    rcases Nat.lt_or_eq_of_le within with earlier | rfl
    · exact free undisturbed j earlier s state stops
    · obtain ⟨cause, undecoded⟩ : ∃ cause, m.decoded m.processor.pc = .error cause := by
        refine unchecked ⟨s, state, stops.active, stops.member, fun passes => ?_⟩
        cases armed.pass.symm.trans passes.1
      obtain ⟨decoded, found⟩ := stops.found
      obtain rfl := Except.ok.inj (reached.symm.trans state)
      cases undecoded.symm.trans found

/-- A run by frames ends as the machine on its own has it, and tells so. -/
theorem Armed.runFrames (armed : e.Armed) {perFrame : Nat}
    (steps : e.settings.frameSteps = perFrame) (positive : 0 < perFrame) (frame : Float) (frames : Nat) :
    ∃ ending, Told ending (runFrames true frame frames e) ∧
      Ends (· ∈ e.debugger.breakpoints) (e.machine.bare.framed perFrame) (perFrame * frames)
        ending := by
  induction frames generalizing e with
  | zero => exact ⟨_, .finished e, .finished nofun rfl⟩
  | succ frames ih =>
    have first {k : Nat} (within : k < perFrame) :
        e.machine.bare.framed perFrame k = e.machine.bare.after k := Machine.framed_of_lt within
    have total : perFrame * (frames + 1) = perFrame + perFrame * frames := by
      rw [Nat.mul_succ, Nat.add_comm]
    rw [total]
    have framed := armed.tick steps
    unfold CommandLine.Run.runFrames
    generalize e.tick = result at framed
    cases framed with
    | @through left n pc ready debugger settings reached machine calm =>
      -- A frame that went through leaves nothing that may be passed and nothing watched.
      have next : left.Armed :=
        ⟨ready, by rw [debugger, armed.pass], by rw [debugger, armed.watchpoints]⟩
      obtain ⟨ending, told, ends⟩ := ih next (settings ▸ steps)
      rw [debugger, machine] at ends
      exact ⟨ending, told, ends.frame positive reached calm⟩
    | @stopped left k before calm reached stops =>
      refine ⟨_, .stopped left, .stopped (k := k) (by omega) (fun j earlier => ?_) ?_ stops⟩
      · rw [first (by omega)]
        exact calm j earlier
      · rw [first before]
        exact reached
    | @failed left fault m k before calm reached failed =>
      refine ⟨_, .failed fault left, .failed (k := k) (by omega) (fun j within => ?_) ?_ failed⟩
      · rw [first (by omega)]
        exact calm j within
      · rw [first before]
        exact reached

end Emulator

end Chip8
