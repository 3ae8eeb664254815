import Chip8.Proofs.Stopping

/-! Runs that stop and go on.

Breakpoints and watchpoints cut a run into pieces and change nothing in them: however often a run
was stopped, single-stepped and resumed, it comes to the state of one run that nothing stops. A run
that stopped at a breakpoint gets on when it is resumed.
-/

set_option autoImplicit false

namespace Chip8

/-- Whether a request runs steps, or changes breakpoints or watchpoints, and does nothing else. -/
def Request.debugs : Request → Bool
  | .step | .runSteps _ | .runUntil _ _ | .addBreakpoint _ | .removeBreakpoint _
  | .addWatchpoint _ | .removeWatchpoint _ | .clearBreakpoints => true
  | _ => false

def Answer.AtBreakpoint : Answer → Prop
  | .stopped event => ∃ pc, event.reason = .breakpoint pc
  | .reached arrived => arrived = true
  | _ => False

namespace Emulator

variable {e left : Emulator}

/-! ### Pieces of a run -/

structure Moved (e : Emulator) (steps : Nat) (left : Emulator) : Prop where
  machine : e.machine.bare.after steps = .ok left.machine.bare
  totalSteps : left.totalSteps = e.totalSteps + steps

theorem Moved.refl (e : Emulator) : e.Moved 0 e :=
  ⟨rfl, rfl⟩

theorem Moved.trans {middle : Emulator} {first second : Nat} (here : e.Moved first middle)
    (there : middle.Moved second left) : e.Moved (first + second) left where
  machine := by rw [Machine.after_add here.machine, there.machine]
  totalSteps := by rw [there.totalSteps, here.totalSteps, Nat.add_assoc]

/-- A run that did not fail is a piece of the run that nothing stops. -/
theorem Ready.moved_runSteps (ready : e.Ready) {limit : Int} {event : StopEvent}
    (run : e.runSteps limit = (.ok event, left)) : ∃ steps, e.Moved steps left := by
  have states := ready.unbroken_eq
  cases ready.ended run with
  | completed undisturbed reached total =>
    rw [states] at reached
    exact ⟨_, reached, total⟩
  | vetoed before undisturbed stops reached total =>
    rw [states] at reached
    exact ⟨_, reached, total⟩
  | requested before undisturbed free hits reached total =>
    rw [states] at reached
    exact ⟨_, reached, total⟩

theorem Ready.moved_step (ready : e.Ready) {event : StopEvent}
    (run : e.step = (.ok event, left)) : e.Moved 1 left := by
  have sound : e.interpreter.unasked.Coherent := ready.coherent.of_bytes_eq rfl rfl
  match step : e.interpreter.unasked.step with
  | (.error fault, i) =>
    rw [step_failed step] at run
    cases run
  | (.ok go, i) =>
    obtain rfl := Interpreter.unasked_step step
    rw [step_ran step] at run
    cases run
    -- What a single step does is one step of the machine, whatever breakpoints there are.
    obtain ⟨stores, moved⟩ := sound.advance step
    exact ⟨Machine.after_succ moved 0, rfl⟩

/-- A run to an address is a run with a breakpoint there, which goes again if it was not there. -/
theorem runSteps_of_runUntil {address limit : Int} {arrived : Bool}
    (run : e.runUntil address limit = (.ok arrived, left)) :
    ∃ (arm disarm : Debugger → Debugger) (event : StopEvent) (middle : Emulator),
      (e.onDebugger arm).runSteps limit = (.ok event, middle) ∧
        left = middle.onDebugger disarm ∧ (∀ d, (disarm d).pass = d.pass) ∧
          arrived = decide (event.reason = .breakpoint address) := by
  unfold Emulator.runUntil at run
  -- The breakpoint is there already, or is there for this run alone.
  split at run
  · match ran : e.runSteps limit with
    | (.error fault, middle) =>
      rw [ran] at run
      cases run
    | (.ok event, middle) =>
      rw [ran] at run
      cases run
      exact ⟨id, id, event, left, ran, rfl, fun _ => rfl, rfl⟩
  · match ran : (e.onDebugger (·.addBreakpoint address)).runSteps limit with
    | (.error fault, middle) =>
      rw [ran] at run
      cases run
    | (.ok event, middle) =>
      rw [ran] at run
      cases run
      exact ⟨_, (·.removeBreakpoint address), event, middle, ran, rfl, fun _ => rfl, rfl⟩

theorem Ready.moved_runUntil (ready : e.Ready) {address limit : Int} {arrived : Bool}
    (run : e.runUntil address limit = (.ok arrived, left)) : ∃ steps, e.Moved steps left := by
  obtain ⟨arm, disarm, event, middle, ran, rfl, -, -⟩ := runSteps_of_runUntil run
  obtain ⟨steps, moved⟩ := (ready.onDebugger arm).moved_runSteps ran
  exact ⟨steps, moved.machine, moved.totalSteps⟩

theorem ok_of_conclude {ε α : Type} {refuse : ε → Refusal} {answer : α → Answer}
    {result : Except ε α × Emulator} {answered : Answer}
    (served : conclude refuse answer result = (.ok answered, left)) :
    ∃ value, answer value = answered ∧ result = (.ok value, left) := by
  obtain ⟨result, e⟩ := result
  cases result with
  | error error => cases served
  | ok value =>
    cases served
    exact ⟨value, rfl, rfl⟩

theorem Ready.moved_perform (ready : e.Ready) {request : Request} (debugs : request.debugs = true)
    {answer : Answer} (served : e.perform request = (.ok answer, left)) :
    ∃ steps, e.Moved steps left := by
  cases request with
  | step =>
    obtain ⟨event, -, run⟩ := ok_of_conclude served
    exact ⟨1, ready.moved_step run⟩
  | runSteps limit =>
    obtain ⟨event, -, run⟩ := ok_of_conclude served
    exact ready.moved_runSteps run
  | runUntil address limit =>
    obtain ⟨arrived, -, run⟩ := ok_of_conclude served
    exact ready.moved_runUntil run
  | addBreakpoint address | removeBreakpoint address | addWatchpoint address
  | removeWatchpoint address | clearBreakpoints =>
    cases served
    exact ⟨0, rfl, rfl⟩
  | _ => cases debugs

theorem Ready.moved_performAll (ready : e.Ready) {requests : List Request}
    (debugs : ∀ r ∈ requests, r.debugs = true)
    (served : ∀ o ∈ (e.performAll requests).1, o.isOk = true) :
    ∃ steps, e.Moved steps (e.performAll requests).2 := by
  -- The pieces are put together: each starts where the one before it stopped.
  induction requests generalizing e with
  | nil => exact ⟨0, .refl e⟩
  | cons request requests ih =>
    obtain ⟨debug, debugs⟩ := List.forall_mem_cons.1 debugs
    have next := ready.perform request
    match first : e.perform request with
    | (.error refusal, middle) =>
      simp only [performAll, first] at served
      have refused := served _ List.mem_cons_self
      cases refused
    | (.ok answer, middle) =>
      rw [first] at next
      simp only [performAll, first] at served ⊢
      obtain ⟨here, moved⟩ := ready.moved_perform debug first
      obtain ⟨there, rest⟩ := ih next debugs (List.forall_mem_cons.1 served).2
      exact ⟨here + there, moved.trans rest⟩

/-! ### Getting on -/

def AtBreakpoint (e : Emulator) : Prop :=
  e.debugger.pass = some e.processor.pc ∧ e.processor.waiting = false

theorem Ready.atBreakpoint_of_runUpTo (ready : e.Ready) {count pc : Int} {event : StopEvent}
    (run : e.runUpTo count = (.ok (some event), left)) (reason : event.reason = .breakpoint pc) :
    left.AtBreakpoint := by
  obtain ⟨halt, ran, i, way, halted⟩ := ready.halted count.toNat
  cases halted with
  | completed undisturbed reached =>
    rw [runUpTo_completed way] at run
    cases run
  | vetoed before undisturbed stops reached active found pass last =>
    rw [runUpTo_vetoed way, last] at run
    cases run
    exact ⟨pass, active⟩
  -- A stop after a watched store is told as such.
  | requested before undisturbed free hits reached last =>
    rw [runUpTo_requested way, last] at run
    obtain rfl := Option.some.inj (Except.ok.inj (Prod.mk.inj run).1)
    cases reason
  | failed before undisturbed reached failed unchecked =>
    rw [runUpTo_failed way] at run
    cases run

theorem Ready.atBreakpoint_of_runAndFinish (ready : e.Ready) {count pc : Int} {event : StopEvent}
    {finish : Emulator → StopEvent × Emulator}
    (unlike : ∀ left : Emulator, (finish left).1.reason ≠ .breakpoint pc)
    (run : e.runAndFinish count finish = (.ok event, left)) (reason : event.reason = .breakpoint pc) :
    left.AtBreakpoint := by
  unfold Emulator.runAndFinish at run
  match ran : e.runUpTo count with
  | (.error fault, middle) =>
    rw [ran] at run
    cases run
  | (.ok (some last), middle) =>
    rw [ran] at run
    cases run
    exact ready.atBreakpoint_of_runUpTo ran reason
  | (.ok none, middle) =>
    rw [ran] at run
    cases run
    -- A run that nothing ended early finishes with an event of its own.
    exact absurd reason (unlike middle)

theorem Ready.atBreakpoint_of_runSteps (ready : e.Ready) {limit pc : Int} {event : StopEvent}
    (run : e.runSteps limit = (.ok event, left)) (reason : event.reason = .breakpoint pc) :
    left.AtBreakpoint := by
  rw [runSteps_eq] at run
  exact ready.atBreakpoint_of_runAndFinish (fun _ => StopReason.noConfusion) run reason

theorem Ready.atBreakpoint_of_tick (ready : e.Ready) {pc : Int} {event : StopEvent}
    (run : e.tick = (.ok event, left)) (reason : event.reason = .breakpoint pc) :
    left.AtBreakpoint := by
  rw [tick_eq] at run
  exact ready.atBreakpoint_of_runAndFinish (fun _ => StopReason.noConfusion) run reason

theorem Ready.atBreakpoint_of_runTicks (ready : e.Ready) {ticks : Ticks} {pc : Int}
    {event : StopEvent} (run : e.runTicks ticks = (.ok event, left))
    (reason : event.reason = .breakpoint pc) : left.AtBreakpoint := by
  rw [runTicks_eq] at run
  exact ready.atBreakpoint_of_runAndFinish (fun _ => StopReason.noConfusion) run reason

theorem Ready.atBreakpoint_of_run (ready : e.Ready) {elapsed : Quantity} {pc : Int}
    {event : StopEvent} (run : e.run elapsed = (.ok event, left))
    (reason : event.reason = .breakpoint pc) : left.AtBreakpoint := by
  unfold Emulator.run at run
  split at run
  · cases run
  · next ticks clock advanced =>
    have ticking : Ready { e with clock } := ready
    match ran : { e with clock }.runTicks ticks with
    | (.error fault, middle) =>
      rw [ran] at run
      cases run
    | (.ok last, middle) =>
      rw [ran] at run
      cases run
      exact ticking.atBreakpoint_of_runTicks ran reason

theorem Ready.atBreakpoint_of_runUntil (ready : e.Ready) {address limit : Int}
    (run : e.runUntil address limit = (.ok true, left)) : left.AtBreakpoint := by
  obtain ⟨arm, disarm, event, middle, ran, rfl, kept, arrived⟩ := runSteps_of_runUntil run
  have reason : event.reason = .breakpoint address := of_decide_eq_true arrived.symm
  have there := (ready.onDebugger arm).atBreakpoint_of_runSteps ran reason
  exact ⟨(kept _).trans there.1, there.2⟩

theorem reason_step {event : StopEvent} (run : e.step = (.ok event, left)) (pc : Int) :
    event.reason ≠ .breakpoint pc := by
  match step : e.interpreter.unasked.step with
  | (.error fault, i) =>
    rw [step_failed step] at run
    cases run
  | (.ok go, i) =>
    obtain rfl := Interpreter.unasked_step step
    rw [step_ran step] at run
    cases run
    unfold stepEvent
    dsimp only
    split <;> nofun

theorem ok_of_settle {ε α : Type} {refuse : ε → Refusal} {result : Except ε α}
    {serve : α → Answer × Emulator} {answer : Answer}
    (served : e.settle refuse (result.map serve) = (.ok answer, left)) :
    ∃ value, serve value = (answer, left) := by
  cases result with
  | error error => cases served
  | ok value =>
    refine ⟨value, ?_⟩
    cases served
    rfl

theorem Ready.atBreakpoint_of_perform (ready : e.Ready) {request : Request} {answer : Answer}
    (served : e.perform request = (.ok answer, left)) (stopped : answer.AtBreakpoint) :
    left.AtBreakpoint := by
  cases request with
  | step =>
    obtain ⟨event, rfl, run⟩ := ok_of_conclude served
    obtain ⟨pc, reason⟩ := stopped
    -- A single step is not checked.
    exact absurd reason (reason_step run pc)
  | tick =>
    obtain ⟨event, rfl, run⟩ := ok_of_conclude served
    obtain ⟨pc, reason⟩ := stopped
    exact ready.atBreakpoint_of_tick run reason
  | run elapsed =>
    obtain ⟨event, rfl, run⟩ := ok_of_conclude served
    obtain ⟨pc, reason⟩ := stopped
    exact ready.atBreakpoint_of_run run reason
  | runTicks ticks =>
    obtain ⟨event, rfl, run⟩ := ok_of_conclude served
    obtain ⟨pc, reason⟩ := stopped
    exact ready.atBreakpoint_of_runTicks run reason
  | runSteps limit =>
    obtain ⟨event, rfl, run⟩ := ok_of_conclude served
    obtain ⟨pc, reason⟩ := stopped
    exact ready.atBreakpoint_of_runSteps run reason
  | runUntil address limit =>
    obtain ⟨arrived, rfl, run⟩ := ok_of_conclude served
    obtain rfl : arrived = true := stopped
    exact ready.atBreakpoint_of_runUntil run
  | load data name | loadRom path status | pressKey name | releaseKey name | readByte address
  | readBytes address count | writeByte address value | writeBytes address data
  | setFrequency frequency | render scale | disassemble address count =>
    -- The answer is a value, which tells of no stop.
    obtain ⟨value, same⟩ := ok_of_settle served
    cases same
    cases stopped
  | _ =>
    cases served
    cases stopped

/-- The next run, or single step, executes an instruction unless it fails. -/
structure GetsOn (e : Emulator) : Prop where
  active : e.processor.waiting = false
  runSteps : ∀ (limit : Int) (event : StopEvent) (left : Emulator), 1 ≤ limit →
    e.runSteps limit = (.ok event, left) → e.totalSteps < left.totalSteps
  step : ∀ (event : StopEvent) (left : Emulator), e.step = (.ok event, left) →
    e.totalSteps < left.totalSteps

theorem Ready.getsOn (ready : e.Ready) (stopped : e.AtBreakpoint) : e.GetsOn where
  active := stopped.2
  runSteps limit event left positive run := by
    cases ready.ended run with
    | completed undisturbed reached total =>
      omega
    | @vetoed _ count decoded before undisturbed stops reached total =>
      -- A stop before the first instruction would be at the address that the next check lets pass.
      have some : count ≠ 0 := by
        rintro rfl
        rw [ready.unbroken_eq] at stops
        exact (Debugger.stopsBefore_zero.1 stops).2.2 stopped.1
      omega
    | requested before undisturbed free hits reached total =>
      omega
  step event left run := by
    rw [(ready.moved_step run).totalSteps]
    exact Nat.lt_succ_self _

/-- However a run is cut up by breakpoints, watchpoints and single steps, its steps come to what as
many steps come to that nothing stops; and a run that stopped at a breakpoint gets on. -/
theorem performAll_debugging (reachable : e.Reachable) {requests : List Request}
    (debugs : ∀ r ∈ requests, r.debugs = true)
    (served : ∀ o ∈ (e.performAll requests).1, o.isOk = true) :
    (∃ steps event whole, (e.performAll requests).2.totalSteps = e.totalSteps + steps ∧
      e.clearBreakpoints.runSteps steps = (.ok event, whole) ∧
      event.reason = .stepLimit whole.processor.pc ∧
      whole.totalSteps = (e.performAll requests).2.totalSteps ∧
      whole.machine.bare = (e.performAll requests).2.machine.bare) ∧
    ∀ request answer stopped, e.perform request = (.ok answer, stopped) → answer.AtBreakpoint →
      stopped.GetsOn := by
  have ready := reachable.ready
  constructor
  · obtain ⟨steps, moved⟩ := ready.moved_performAll debugs served
    have run := ready.runSteps_clearBreakpoints steps
    rw [moved.machine] at run
    obtain ⟨whole, run, same, totalSteps⟩ := run
    refine ⟨steps, _, whole, moved.totalSteps, run, ?_, ?_, same⟩
    · have processor := congrArg Machine.processor same
      exact congrArg (fun p : Processor => StopReason.stepLimit p.pc) processor.symm
    · rw [totalSteps, moved.totalSteps]
  · intro request answer stopped answered atBreakpoint
    have left := ready.perform request
    rw [answered] at left
    exact left.getsOn (ready.atBreakpoint_of_perform answered atBreakpoint)

/-- Two steps, cut up by a single step, a breakpoint and a watched store. -/
theorem performAll_debugging_session :
    let pieces := [.step, .addBreakpoint 0x204, .runSteps 10, .runSteps 10]
    session.1.Reachable ∧ (∀ r ∈ pieces, r.debugs = true) ∧
      (∀ o ∈ (session.1.performAll pieces).1, o.isOk = true) ∧
      (session.1.performAll pieces).2.totalSteps = session.1.totalSteps + 2 ∧
      ∃ event whole, session.1.clearBreakpoints.runSteps 2 = (.ok event, whole) ∧
        whole.machine.bare = (session.1.performAll pieces).2.machine.bare := by
  intro pieces
  have debugs : ∀ r ∈ pieces, r.debugs = true := by decide
  have served : ∀ o ∈ (session.1.performAll pieces).1, o.isOk = true := by decide +kernel
  have two : (session.1.performAll pieces).2.totalSteps = session.1.totalSteps + 2 := by decide +kernel
  obtain ⟨⟨steps, event, whole, total, run, -, -, same⟩, -⟩ :=
    performAll_debugging session.2 debugs served
  obtain rfl : steps = 2 := by omega
  exact ⟨session.2, debugs, served, two, event, whole, run, same⟩

end Emulator

end Chip8
