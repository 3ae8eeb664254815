import Chip8.Proofs.Resumption

/-! Running until an address is reached.

Such a run borrows a breakpoint at the address and always gives it back. It arrives when it would
run the instruction there: it then stands in a state of the run that nothing stops, with steps to
spare.
What is at the address only once no step is left, or only while the program waits for a key, is not
asked for and so not found.
-/

set_option autoImplicit false

namespace Chip8

/-! ### Borrowing a breakpoint -/

theorem filter_insertAscending {a : Int} {bs : List Int} (absent : a ∉ bs) :
    (insertAscending a bs).filter (· ≠ a) = bs := by
  have apart {cs : List Int} (absent : a ∉ cs) : cs.filter (· ≠ a) = cs := by
    refine List.filter_eq_self.2 fun c member => ?_
    exact decide_eq_true fun same => absent (same ▸ member)
  induction bs with
  | nil => simp [insertAscending]
  | cons b bs ih =>
    obtain ⟨other, rest⟩ : a ≠ b ∧ a ∉ bs := by simpa using absent
    unfold insertAscending
    split
    · rw [List.filter_cons_of_neg (by simp), apart absent]
    · rw [List.filter_cons_of_pos (by simpa using other.symm), ih rest]

namespace AddressSet

theorem erase_insert {s : AddressSet} {a : Int} (absent : a ∉ s) : (s.insert a).erase a = s := by
  obtain ⟨members, ascending⟩ := s
  simp only [insert, erase, mk.injEq]
  exact filter_insertAscending absent

end AddressSet

namespace Debugger

def points (d : Debugger) : AddressSet × AddressSet :=
  (d.breakpoints, d.watchpoints)

theorem points_checkInstruction (d : Debugger) (pc : Int) :
    (d.checkInstruction pc).2.points = d.points := by
  unfold checkInstruction
  split
  · split <;> rfl
  · rfl

theorem points_checkWrite (d : Debugger) (address value : Int) :
    (d.checkWrite address value).2.points = d.points := by
  unfold checkWrite
  split <;> rfl

theorem removeBreakpoint_of_borrowed {d left : Debugger} {address : Int}
    (absent : address ∉ d.breakpoints) (kept : left.points = (d.addBreakpoint address).points) :
    (left.removeBreakpoint address).points = d.points := by
  obtain ⟨breakpoints, watchpoints⟩ := Prod.mk.inj kept
  simp only [points, removeBreakpoint, breakpoints, watchpoints, addBreakpoint,
    AddressSet.erase_insert absent]

end Debugger

namespace Interpreter

variable {size : Nat} {i j : Interpreter Debugger size}

theorem points_foldl_tell (hooks : i.hooks = Debugger.hooks) (stores : List Store) :
    (stores.foldl tell i).observer.points = i.observer.points := by
  induction stores generalizing i with
  | nil => rfl
  | cons store stores ih =>
    have told : (i.tell store).observer.points = i.observer.points := by
      simp only [tell, hooks, Debugger.hooks, Debugger.points_checkWrite]
    have same : (i.tell store).hooks = Debugger.hooks := by rw [tell_eq, hooks]
    rw [List.foldl_cons, ih same, told]

theorem points_noteStores (hooks : i.hooks = Debugger.hooks) (stores : List Store) :
    (i.noteStores stores).observer.points = i.observer.points := by
  unfold noteStores
  -- Telling does not look at the cache.
  generalize i.cache.map _ = cache
  exact points_foldl_tell (i := { i with cache }) hooks stores

/-- A debugger never sets or removes anything by itself. -/
theorem points_step (hooks : i.hooks = Debugger.hooks) {result : Except Fault Bool}
    (step : i.step = (result, j)) : j.observer.points = i.observer.points := by
  have asked {fetched asked : Interpreter Debugger size} {found : Except Cause Decoded} {pc : Int}
      {word : Word} {go : Bool} (fetch : i.fetch pc = (found, fetched))
      (ask : fetched.ask pc word = (go, asked)) :
      asked.hooks = Debugger.hooks ∧ asked.observer.points = i.observer.points := by
    have kept := fetch_keeps fetch
    have same : fetched.hooks = Debugger.hooks := by rw [kept, hooks]
    have observer : fetched.observer = i.observer := by rw [kept]
    rw [ask_debugged same] at ask
    obtain ⟨-, rfl⟩ := Prod.mk.inj ask
    exact ⟨same, by rw [Debugger.points_checkInstruction, observer]⟩
  cases stepped step with
  | polled waiting => rfl
  | unfetched active fetch => rw [fetch_keeps fetch]
  | vetoed active fetch ask => exact (asked fetch ask).2
  | failed active fetch ask failed => exact (asked fetch ask).2
  | @executed decoded fetched after machine stores active fetch ask done =>
    obtain ⟨same, kept⟩ := asked fetch ask
    exact (points_noteStores (i := { after with machine }) same stores).trans kept

theorem Ran.points (hooks : i.hooks = Debugger.hooks) {steps count : Nat} {halt : Halt}
    (way : Ran i steps halt count j) : j.observer.points = i.observer.points := by
  induction way with
  | completed => rfl
  | failed step => exact points_step hooks step
  | vetoed step => exact points_step hooks step
  | requested step requested =>
    have kept := points_step hooks step
    exact kept
  | more step quiet rest ih =>
    exact (ih ((hooks_step step).trans hooks)).trans (points_step hooks step)

end Interpreter

namespace Emulator

variable {e left : Emulator} {address : Int}

theorem Ready.points_runSteps (ready : e.Ready) (limit : Int) :
    (e.runSteps limit).2.debugger.points = e.debugger.points := by
  obtain ⟨halt, ran, way⟩ := e.interpreter_runUpTo limit
  have kept := way.points ready.hooks
  rw [runSteps_eq, Emulator.runAndFinish]
  generalize e.runUpTo limit = result at kept
  obtain ⟨fault | event, left⟩ := result
  · exact kept
  · cases event with
    | none => exact kept
    | some event => exact kept

/-- However a run to an address ends, no breakpoint and no watchpoint has come or gone. -/
theorem Ready.points_runUntil (ready : e.Ready) (address limit : Int) :
    (e.runUntil address limit).2.debugger.points = e.debugger.points := by
  unfold Emulator.runUntil
  split
  · rw [snd_reached]
    exact ready.points_runSteps limit
  · next absent =>
    have armed := ready.onDebugger (·.addBreakpoint address)
    have kept := armed.points_runSteps limit
    rw [← snd_reached address] at kept
    exact Debugger.removeBreakpoint_of_borrowed absent kept

/-! ### What an arrival means -/

/-- A run to an address that arrives is a run of fewer steps than it might take, up to the
instruction there. -/
theorem Ready.arrived (ready : e.Ready) {limit : Int}
    (run : e.runUntil address limit = (.ok true, left)) :
    left.processor.pc = address ∧ left.processor.waiting = false ∧
      ∃ steps : Nat, (steps : Int) < limit ∧ e.Moved steps left := by
  obtain ⟨arm, disarm, event, middle, ran, rfl, -, arrived⟩ := runSteps_of_runUntil run
  have reason : event.reason = .breakpoint address := of_decide_eq_true arrived.symm
  have armed := ready.onDebugger arm
  cases armed.ended ran with
  | completed undisturbed reached total other =>
    rw [reason] at other
    cases other
  | @vetoed event count decoded before undisturbed stops reached total active found there =>
    rw [reason] at there
    obtain rfl : address = middle.processor.pc := StopReason.breakpoint.inj there
    rw [armed.unbroken_eq] at reached
    exact ⟨rfl, active, count, by omega, reached, total⟩
  | requested before undisturbed free hits reached total stored other =>
    rw [reason] at other
    cases other

/-- A run to an address leaves breakpoints and watchpoints as they were, however it ends. If it
arrives, it is before the instruction at the address, with steps to spare, and in the state that as
many steps come to that nothing stops. -/
theorem runUntil_sound (ready : e.Ready) (address limit : Int) :
    (e.runUntil address limit).2.debugger.breakpoints = e.debugger.breakpoints ∧
    (e.runUntil address limit).2.debugger.watchpoints = e.debugger.watchpoints ∧
    ∀ left, e.runUntil address limit = (.ok true, left) →
      left.processor.pc = address ∧ left.processor.waiting = false ∧
      ∃ (steps : Nat) (event : StopEvent) (whole : Emulator), (steps : Int) < limit ∧
        left.totalSteps = e.totalSteps + steps ∧
        e.clearBreakpoints.runSteps steps = (.ok event, whole) ∧
        event.reason = .stepLimit whole.processor.pc ∧ whole.totalSteps = left.totalSteps ∧
        whole.machine.bare = left.machine.bare := by
  obtain ⟨breakpoints, watchpoints⟩ := Prod.mk.inj (ready.points_runUntil address limit)
  refine ⟨breakpoints, watchpoints, fun left run => ?_⟩
  obtain ⟨there, active, steps, fewer, moved⟩ := ready.arrived run
  have whole := ready.runSteps_clearBreakpoints steps
  rw [moved.machine] at whole
  obtain ⟨whole, run, same, total⟩ := whole
  refine ⟨there, active, steps, _, whole, fewer, moved.totalSteps, run, ?_, ?_, same⟩
  · have processor := congrArg Machine.processor same
    exact congrArg (fun p : Processor => StopReason.stepLimit p.pc) processor.symm
  · rw [total, moved.totalSteps]

/-- From the session, which passes the breakpoint it stands at, one step to the next instruction. -/
theorem runUntil_sound_session : session.1.Ready ∧
    ∃ left whole event, session.1.runUntil 0x204 10 = (.ok true, left) ∧
      left.processor.pc = 0x204 ∧ left.debugger.points = session.1.debugger.points ∧
      session.1.clearBreakpoints.runSteps (1 : Nat) = (.ok event, whole) ∧
      whole.machine.bare = left.machine.bare := by
  have facts : (session.1.runUntil 0x204 10).1.toOption = some true ∧
      session.1.totalSteps = 1 ∧ (session.1.runUntil 0x204 10).2.totalSteps = 2 := by
    decide +kernel
  obtain ⟨breakpoints, watchpoints, sound⟩ := runUntil_sound session.2.ready 0x204 10
  match run : session.1.runUntil 0x204 10 with
  | (outcome, left) =>
    rw [run] at facts breakpoints watchpoints
    obtain ⟨arrived, before, after⟩ := facts
    obtain rfl := eq_ok_of_toOption arrived
    obtain ⟨there, -, steps, event, whole, -, total, uncut, -, -, same⟩ := sound left run
    obtain rfl : steps = 1 := by
      dsimp only at after
      omega
    have kept : left.debugger.points = session.1.debugger.points := by
      simp only [Debugger.points, breakpoints, watchpoints]
    exact ⟨session.2.ready, left, whole, event, rfl, there, kept, uncut, same⟩

/-! ### Which arrivals are found -/

structure Unset (e : Emulator) : Prop where
  breakpoints : e.debugger.breakpoints = .empty
  watchpoints : e.debugger.watchpoints = .empty
  pass : e.debugger.pass = none

/-- After so many steps that nothing stops the program counter is at an address. -/
def IsAt (e : Emulator) (address : Int) (steps : Nat) : Prop :=
  ∃ m, e.unbroken steps = .ok m ∧ m.processor.pc = address

/-- After so many steps that nothing stops the instruction at an address is the next to run. -/
def Arrives (e : Emulator) (address : Int) (steps : Nat) : Prop :=
  ∃ m, e.unbroken steps = .ok m ∧ m.processor.pc = address ∧ m.processor.waiting = false

theorem Arrives.isAt {steps : Nat} (arrives : e.Arrives address steps) : e.IsAt address steps := by
  obtain ⟨m, reached, there, -⟩ := arrives
  exact ⟨m, reached, there⟩

theorem Unset.stopsBefore_iff (clear : e.Unset) {steps : Nat} :
    (e.debugger.addBreakpoint address).StopsBefore e.unbroken steps ↔ e.Arrives address steps := by
  have only {a : Int} : a ∈ (e.debugger.addBreakpoint address).breakpoints ↔ a = address := by
    simp [Debugger.addBreakpoint, clear.breakpoints]
  constructor
  · rintro ⟨m, reached, active, member, -⟩
    exact ⟨m, reached, only.1 member, active⟩
  · rintro ⟨m, reached, there, active⟩
    refine ⟨m, reached, active, only.2 there, fun armed => ?_⟩
    have pass := clear.pass.symm.trans armed.1
    cases pass

/-- A run to an address arrives exactly if it comes to the instruction there with a step left for
it, and does all its steps otherwise. -/
theorem Ready.runUntil_eq (ready : e.Ready) (clear : e.Unset) {limit : Nat}
    {last : Machine memorySize} (calm : e.unbroken limit = .ok last) (address : Int) :
    ∃ arrived left, e.runUntil address limit = (.ok arrived, left) ∧
      (arrived = true ↔ ∃ k < limit, e.Arrives address k) ∧
      (arrived = false → left.machine.bare = last) := by
  have absent : address ∉ e.debugger.breakpoints := by
    rw [clear.breakpoints]
    exact AddressSet.not_mem_empty _
  have armed := ready.onDebugger (·.addBreakpoint address)
  match run : (e.onDebugger (·.addBreakpoint address)).runSteps limit with
  | (result, left) =>
    have ended : Ended (e.onDebugger (·.addBreakpoint address)) left limit result := armed.ended run
    have outcome : e.runUntil address limit =
        ((runUntil.reached address (result, left)).1,
          left.onDebugger (·.removeBreakpoint address)) := by
      rw [Emulator.runUntil, if_neg absent, run]
      cases result <;> rfl
    -- The run that nothing stops does not depend on the breakpoint.
    cases ended with
    | @completed event undisturbed reached total reason =>
      refine ⟨false, left.onDebugger (·.removeBreakpoint address), ?_, ⟨nofun, ?_⟩, fun _ => ?_⟩
      · rw [outcome, runUntil.reached, reason]
        rfl
      · rintro ⟨k, within, arrives⟩
        exact absurd (clear.stopsBefore_iff.2 arrives) (undisturbed k within).1
      · exact Except.ok.inj (reached.symm.trans calm)
    | @vetoed event count decoded before undisturbed stops reached total active found reason =>
      have arrives : e.Arrives address count := clear.stopsBefore_iff.1 stops
      have there : left.processor.pc = address := by
        obtain ⟨m, same, there, -⟩ := arrives
        obtain rfl : m = left.machine.bare := Except.ok.inj (same.symm.trans reached)
        exact there
      refine ⟨true, left.onDebugger (·.removeBreakpoint address), ?_,
        ⟨fun _ => ⟨count, before, arrives⟩, fun _ => rfl⟩, nofun⟩
      rw [outcome, runUntil.reached, reason, there, decide_eq_true rfl]
    | requested before undisturbed free hits reached =>
      exact absurd hits.writesWatched (Debugger.not_writesWatched_of_empty clear.watchpoints)
    | @failed fault count m before undisturbed reached failed unchecked =>
      have beyond := ready.lt_of_failed calm failed
      omega

end Emulator

namespace Machine

variable {size : Nat} {m last : Machine size} {address : Int}

/-- A machine that leaves an address comes to run the instruction there first: a wait for a key that
ends does not move the program counter. -/
theorem exists_arrival {steps : Nat} (reached : m.after steps = .ok last)
    (there : m.processor.pc = address) (gone : last.processor.pc ≠ address) :
    ∃ k < steps, ∃ n, m.after k = .ok n ∧ n.processor.pc = address ∧
      n.processor.waiting = false := by
  induction steps generalizing m with
  | zero =>
    cases reached
    exact absurd there gone
  | succ steps ih =>
    cases waiting : m.processor.waiting with
    | false => exact ⟨0, Nat.succ_pos steps, m, rfl, there, waiting⟩
    | true =>
      have polled := advance_of_waiting waiting
      rw [after_succ polled] at reached
      have still : m.poll.processor.pc = address := by
        unfold poll
        split
        · exact there
        · exact there
      obtain ⟨k, within, n, later, arrives⟩ := ih reached still
      exact ⟨k + 1, Nat.succ_lt_succ within, n, (after_succ polled k).trans later, arrives⟩

end Machine

namespace Emulator

variable {e left : Emulator} {address : Int}

theorem Ready.exists_arrives (ready : e.Ready) {limit k : Nat} {last : Machine memorySize}
    (calm : e.unbroken limit = .ok last) (gone : last.processor.pc ≠ address) (within : k ≤ limit)
    (isAt : e.IsAt address k) : ∃ j < limit, e.Arrives address j := by
  obtain ⟨m, reached, there⟩ := isAt
  obtain ⟨rest, rfl⟩ := Nat.exists_eq_add_of_le within
  unfold Arrives
  rw [ready.unbroken_eq] at calm reached ⊢
  rw [Machine.after_add reached] at calm
  obtain ⟨j, before, n, later, arrives⟩ := Machine.exists_arrival calm there gone
  exact ⟨k + j, by omega, n, (Machine.after_add reached j).trans later, arrives⟩

/-- With nothing else set, a run to an address arrives exactly if it comes to the instruction there
with a step left for it. If it is not at the address when its steps are used up, these are all its
visits of the address, and then it does not stand there without having said so. -/
theorem runUntil_arrives (ready : e.Ready) (clear : e.Unset) {limit : Nat}
    {last : Machine memorySize} (calm : e.unbroken limit = .ok last) (address : Int) :
    ∃ arrived left, e.runUntil address limit = (.ok arrived, left) ∧
      (arrived = true ↔ ∃ k < limit, e.Arrives address k) ∧
      (last.processor.pc ≠ address →
        (arrived = true ↔ ∃ k ≤ limit, e.IsAt address k) ∧
        (arrived = false → left.processor.pc ≠ address)) := by
  obtain ⟨arrived, left, run, iff, missed⟩ := ready.runUntil_eq clear calm address
  refine ⟨arrived, left, run, iff, fun gone => ⟨iff.trans ⟨?_, ?_⟩, fun missing => ?_⟩⟩
  · rintro ⟨k, within, arrives⟩
    exact ⟨k, Nat.le_of_lt within, arrives.isAt⟩
  · rintro ⟨k, within, isAt⟩
    exact ready.exists_arrives calm gone within isAt
  · rw [← missed missing] at gone
    exact gone

def fresh (program : List UInt8) : { e : Emulator // e.Reachable } :=
  ⟨_, reachable_usual.performAll [.load program "fresh"]⟩

theorem debugger_load (e : Emulator) (program : List UInt8) (name : String) :
    (e.perform (.load program name)).2.debugger = e.debugger := by
  rw [perform, loadProgram]
  split
  · rfl
  · split <;> rfl

theorem unset_fresh (program : List UInt8) : (fresh program).1.Unset := by
  have unset : usual.debugger = {} := by decide +kernel
  have loaded : (fresh program).1.debugger = {} := (debugger_load usual program "fresh").trans unset
  constructor <;> rw [loaded]

theorem isAt_of_pc {steps : Nat}
    (pc : (e.unbroken steps).toOption.map (·.processor.pc) = some address) :
    e.IsAt address steps := by
  cases reached : e.unbroken steps with
  | error fault =>
    rw [reached] at pc
    cases pc
  | ok m =>
    rw [reached] at pc
    exact ⟨m, reached, Option.some.inj pc⟩


/-- The third instruction of a program that goes on behind it. -/
theorem runUntil_arrives_thirdInstruction : (fresh storeOnce).1.Ready ∧ (fresh storeOnce).1.Unset ∧
    ∃ last left, (fresh storeOnce).1.unbroken 10 = .ok last ∧ last.processor.pc ≠ 0x204 ∧
      (fresh storeOnce).1.runUntil 0x204 (10 : Nat) = (.ok true, left) := by
  have there : (fresh storeOnce).1.IsAt 0x204 2 := isAt_of_pc (by decide +kernel)
  obtain ⟨last, calm, beyond⟩ : (fresh storeOnce).1.IsAt 0x206 10 := isAt_of_pc (by decide +kernel)
  have gone : last.processor.pc ≠ 0x204 := by
    rw [beyond]
    decide
  obtain ⟨arrived, left, run, -, visits⟩ :=
    runUntil_arrives (fresh storeOnce).2.ready (unset_fresh storeOnce) calm 0x204
  obtain rfl : arrived = true := (visits gone).1.2 ⟨2, by decide, there⟩
  exact ⟨(fresh storeOnce).2.ready, unset_fresh storeOnce, last, left, calm, gone, run⟩

def awaitOnce : List UInt8 :=
  [0xF0, 0x0A, 0x12, 0x02]

/-- The program counter comes to $202 in the last step of the one program, and in the first of ten
steps of the other, which then waits for a key. Neither run is told to have got there. -/
theorem runUntil_misses_arrivals :
    ((fresh storeOnce).1.Unset ∧ (∃ last, (fresh storeOnce).1.unbroken 1 = .ok last) ∧
      ¬ (((fresh storeOnce).1.runUntil 0x202 1).1 = .ok true ↔
        ∃ k ≤ 1, (fresh storeOnce).1.IsAt 0x202 k)) ∧
    (fresh awaitOnce).1.Unset ∧ (∃ last, (fresh awaitOnce).1.unbroken 10 = .ok last) ∧
      ¬ (((fresh awaitOnce).1.runUntil 0x202 10).1 = .ok true ↔
        ∃ k ≤ 10, (fresh awaitOnce).1.IsAt 0x202 k) := by
  have missed {e : Emulator} {limit : Int}
      (answer : (e.runUntil 0x202 limit).1.toOption = some false) :
      (e.runUntil 0x202 limit).1 ≠ .ok true := by
    rw [eq_ok_of_toOption answer]
    nofun
  have last : (fresh storeOnce).1.IsAt 0x202 1 := isAt_of_pc (by decide +kernel)
  have first : (fresh awaitOnce).1.IsAt 0x202 1 := isAt_of_pc (by decide +kernel)
  obtain ⟨still, waits, -⟩ : (fresh awaitOnce).1.IsAt 0x202 10 := isAt_of_pc (by decide +kernel)
  refine ⟨⟨unset_fresh storeOnce, ⟨_, last.choose_spec.1⟩, fun iff => ?_⟩,
    unset_fresh awaitOnce, ⟨still, waits⟩, fun iff => ?_⟩
  · exact missed (by decide +kernel) (iff.2 ⟨1, by decide, last⟩)
  · exact missed (by decide +kernel) (iff.2 ⟨1, by decide, first⟩)

end Emulator

end Chip8
