import Chip8.Proofs.DebuggedStep
import Chip8.Proofs.Run

/-! Runs under a debugger, measured against the machine on its own.

The states that a machine comes to by itself tell where a run has to end: before the first
instruction with a breakpoint, after the first step that writes a watched byte, or with a fault. A
run ends at the first of these, and its result tells which one it was.
-/

set_option autoImplicit false

namespace Chip8

variable {size : Nat}

/-! ### Where a run has to end -/

namespace Debugger

/-- A breakpoint stops a run through some states before step `k`. The first instruction of the run
may pass; looks at the keypad are not checked. -/
def StopsBefore (d : Debugger) (states : Nat → Except Fault (Machine size)) (k : Nat) : Prop :=
  ∃ m, states k = .ok m ∧ m.processor.waiting = false ∧ m.processor.pc ∈ d.breakpoints ∧
    ¬ (d.pass = some m.processor.pc ∧
      ∀ j < k, ∃ earlier, states j = .ok earlier ∧ earlier.processor.waiting = true)

def WritesWatched (d : Debugger) (states : Nat → Except Fault (Machine size)) (k : Nat) : Prop :=
  ∃ m n stores, states k = .ok m ∧ m.advance = .ok (n, stores) ∧ ∃ s ∈ stores, d.Watches s

/-- A store is the highest of those by which step `k` writes watched bytes. -/
def HitsAt (d : Debugger) (states : Nat → Except Fault (Machine size)) (k : Nat) (store : Store) :
    Prop :=
  ∃ m n stores, states k = .ok m ∧ m.advance = .ok (n, stores) ∧ d.HighestHit stores store

def Undisturbed (d : Debugger) (states : Nat → Except Fault (Machine size)) (count : Nat) : Prop :=
  ∀ k < count, ¬ d.StopsBefore states k ∧ ¬ d.WritesWatched states k

variable {d : Debugger} {m n : Machine size} {stores : List Store}

theorem watches_passing {waiting : Bool} {store : Store} :
    (d.passing waiting).Watches store ↔ d.Watches store := by
  rw [Watches, watchpoints_passing, Watches]

theorem highestHit_passing {waiting : Bool} {store : Store} :
    (d.passing waiting).HighestHit stores store ↔ d.HighestHit stores store := by
  cases waiting with
  | false => exact ⟨fun ⟨a, b, c⟩ => ⟨a, b, c⟩, fun ⟨a, b, c⟩ => ⟨a, b, c⟩⟩
  | true => exact Iff.rfl

theorem HitsAt.writesWatched {states : Nat → Except Fault (Machine size)} {k : Nat} {store : Store}
    (hits : d.HitsAt states k store) : d.WritesWatched states k := by
  obtain ⟨m, n, stores, reached, moved, hit⟩ := hits
  exact ⟨m, n, stores, reached, moved, store, hit.member, hit.watched⟩

theorem stopsBefore_zero :
    d.StopsBefore m.after 0 ↔ m.processor.waiting = false ∧ d.Blocks m.processor.pc := by
  constructor
  · rintro ⟨_, ⟨⟩, active, member, unarmed⟩
    exact ⟨active, member, fun pass => unarmed ⟨pass, nofun⟩⟩
  · rintro ⟨active, member, unarmed⟩
    exact ⟨m, rfl, active, member, fun pass => unarmed pass.1⟩

/-- After a step the debugger has the rest of the run before it. -/
theorem stopsBefore_succ (moved : m.advance = .ok (n, stores)) {k : Nat} :
    d.StopsBefore m.after (k + 1) ↔ (d.passing m.processor.waiting).StopsBefore n.after k := by
  have later (j : Nat) : m.after (j + 1) = n.after j := Machine.after_succ moved j
  unfold StopsBefore
  simp only [later, breakpoints_passing]
  refine exists_congr fun s => and_congr_right fun _ => and_congr_right fun _ =>
    and_congr_right fun _ => not_congr ?_
  -- A look at the keypad keeps the pass for the first instruction; an instruction uses it up.
  cases waiting : m.processor.waiting with
  | false =>
    refine ⟨fun ⟨_, polls⟩ => ?_, fun ⟨pass, _⟩ => absurd pass nofun⟩
    obtain ⟨_, ⟨⟩, first⟩ := polls 0 (Nat.succ_pos k)
    rw [waiting] at first
    cases first
  | true =>
    refine and_congr_right fun _ => ⟨fun polls j before => ?_, fun polls j before => ?_⟩
    · rw [← later]
      exact polls (j + 1) (Nat.succ_lt_succ before)
    · cases j with
      | zero => exact ⟨m, rfl, waiting⟩
      | succ j =>
        rw [later]
        exact polls j (Nat.lt_of_succ_lt_succ before)

theorem writesWatched_zero (moved : m.advance = .ok (n, stores)) :
    d.WritesWatched m.after 0 ↔ ∃ s ∈ stores, d.Watches s := by
  constructor
  · rintro ⟨_, _, _, ⟨⟩, same, hit⟩
    rw [moved] at same
    cases same
    exact hit
  · intro hit
    exact ⟨m, n, stores, rfl, moved, hit⟩

theorem writesWatched_succ (moved : m.advance = .ok (n, stores)) {k : Nat} :
    d.WritesWatched m.after (k + 1) ↔
      (d.passing m.processor.waiting).WritesWatched n.after k := by
  unfold WritesWatched
  simp only [Machine.after_succ moved, watches_passing]

theorem hitsAt_zero (moved : m.advance = .ok (n, stores)) {store : Store} :
    d.HitsAt m.after 0 store ↔ d.HighestHit stores store := by
  constructor
  · rintro ⟨_, _, _, ⟨⟩, same, hit⟩
    rw [moved] at same
    cases same
    exact hit
  · intro hit
    exact ⟨m, n, stores, rfl, moved, hit⟩

theorem hitsAt_succ (moved : m.advance = .ok (n, stores)) {k : Nat} {store : Store} :
    d.HitsAt m.after (k + 1) store ↔
      (d.passing m.processor.waiting).HitsAt n.after k store := by
  unfold HitsAt
  simp only [Machine.after_succ moved, highestHit_passing]

theorem undisturbed_zero (states : Nat → Except Fault (Machine size)) : d.Undisturbed states 0 :=
  nofun

theorem Undisturbed.cons (moved : m.advance = .ok (n, stores))
    (free : ¬ d.StopsBefore m.after 0) (unhit : ¬ d.WritesWatched m.after 0) {count : Nat}
    (rest : (d.passing m.processor.waiting).Undisturbed n.after count) :
    d.Undisturbed m.after (count + 1) := by
  intro k before
  cases k with
  | zero => exact ⟨free, unhit⟩
  | succ k =>
    obtain ⟨laterFree, laterUnhit⟩ := rest k (Nat.lt_of_succ_lt_succ before)
    exact ⟨fun stops => laterFree ((stopsBefore_succ moved).1 stops), fun writes =>
      laterUnhit ((writesWatched_succ moved).1 writes)⟩

end Debugger

/-! ### Where it ends -/

namespace Interpreter

variable {i j k : Interpreter Debugger size}

inductive Halted (i j : Interpreter Debugger size) (steps : Nat) : Halt → Nat → Prop where
  | completed (undisturbed : i.observer.Undisturbed i.machine.bare.after steps)
      (reached : i.machine.bare.after steps = .ok j.machine.bare) :
      Halted i j steps .completed steps
  | vetoed {count : Nat} {decoded : Decoded} (before : count < steps)
      (undisturbed : i.observer.Undisturbed i.machine.bare.after count)
      (stops : i.observer.StopsBefore i.machine.bare.after count)
      (reached : i.machine.bare.after count = .ok j.machine.bare)
      (active : j.machine.processor.waiting = false)
      (found : j.machine.bare.decoded j.machine.processor.pc = .ok decoded)
      (pass : j.observer.pass = some j.machine.processor.pc)
      (event : j.observer.lastEvent = some { reason := .breakpoint j.machine.processor.pc }) :
      Halted i j steps .vetoed count
  | requested {count : Nat} {store : Store} (before : count < steps)
      (undisturbed : i.observer.Undisturbed i.machine.bare.after count)
      (free : ¬ i.observer.StopsBefore i.machine.bare.after count)
      (hits : i.observer.HitsAt i.machine.bare.after count store)
      (reached : i.machine.bare.after (count + 1) = .ok j.machine.bare)
      (event : j.observer.lastEvent =
        some { reason := .write store.address store.value.toNat }) :
      Halted i j steps .requested (count + 1)
  | failed {count : Nat} {fault : Fault} {m : Machine size} (before : count < steps)
      (undisturbed : i.observer.Undisturbed i.machine.bare.after count)
      (reached : i.machine.bare.after count = .ok m) (failed : m.advance = .error fault)
      (unchecked : i.observer.StopsBefore i.machine.bare.after count →
        ∃ cause, m.decoded m.processor.pc = .error cause) :
      Halted i j steps (.failed fault) count

theorem Halted.cons {stores : List Store}
    (moved : i.machine.bare.advance = .ok (j.machine.bare, stores))
    (free : ¬ i.observer.StopsBefore i.machine.bare.after 0)
    (unhit : ¬ i.observer.WritesWatched i.machine.bare.after 0)
    (observer : j.observer = i.observer.passing i.machine.bare.processor.waiting)
    {steps count : Nat} {halt : Halt} (rest : Halted j k steps halt count) :
    Halted i k (steps + 1) halt (count + 1) := by
  -- All that is told of the rest is told of the whole one step later.
  have later (c : Nat) : i.machine.bare.after (c + 1) = j.machine.bare.after c :=
    Machine.after_succ moved c
  have undisturbed {c : Nat} (rest : j.observer.Undisturbed j.machine.bare.after c) :
      i.observer.Undisturbed i.machine.bare.after (c + 1) :=
    .cons moved free unhit (observer ▸ rest)
  have stops {c : Nat} : i.observer.StopsBefore i.machine.bare.after (c + 1) ↔
      j.observer.StopsBefore j.machine.bare.after c := by
    rw [Debugger.stopsBefore_succ moved, observer]
  cases rest with
  | completed rest reached =>
    exact .completed (undisturbed rest) ((later _).trans reached)
  | vetoed before rest stopped reached active found pass event =>
    exact .vetoed (Nat.succ_lt_succ before) (undisturbed rest) (stops.2 stopped)
      ((later _).trans reached) active found pass event
  | requested before rest laterFree hits reached event =>
    refine .requested (Nat.succ_lt_succ before) (undisturbed rest)
      (fun stopped => laterFree (stops.1 stopped)) ?_ ((later _).trans reached) event
    rw [Debugger.hitsAt_succ moved, ← observer]
    exact hits
  | failed before rest reached failed unchecked =>
    exact .failed (Nat.succ_lt_succ before) (undisturbed rest) ((later _).trans reached) failed
      fun stopped => unchecked (stops.1 stopped)

/-- Every run under a debugger ends where it has to. -/
theorem Ready.halted (ready : i.Ready) {steps count : Nat} {halt : Halt}
    (way : Ran i steps halt count j) : Halted i j steps halt count := by
  -- By induction on the run: the first step is put in front of a run under the debugger that it
  -- leaves, which holds a pass only if the step was a look at the keypad.
  induction way with
  | completed => exact .completed (Debugger.undisturbed_zero _) rfl
  | failed step =>
    cases ready.debugged step with
    | faulted active failed unchecked =>
      refine .failed (Nat.succ_pos _) (Debugger.undisturbed_zero _) rfl failed fun stopped => ?_
      obtain ⟨cause, undecoded⟩ := unchecked (Debugger.stopsBefore_zero.1 stopped).2
      exact ⟨cause, (Machine.decoded_bare _ _).trans undecoded⟩
  | @vetoed i j steps step =>
    cases ready.debugged step with
    | blocked active found blocks machine observer =>
      have processor : j.machine.processor = i.machine.processor := by
        rw [← Machine.processor_bare, machine, Machine.processor_bare]
      rw [← Machine.decoded_bare, ← machine, ← processor] at found
      refine .vetoed (Nat.succ_pos _) (Debugger.undisturbed_zero _)
        (Debugger.stopsBefore_zero.2 ⟨active, blocks⟩) (congrArg Except.ok machine.symm)
        (processor ▸ active) found ?_ ?_
      · rw [observer, processor, Debugger.stoppedAt]
      · rw [observer, processor, Debugger.stoppedAt]
  | requested step requested =>
    cases ready.debugged step with
    | passed moved free unwatched observer quiet =>
      rw [requested] at quiet
      cases quiet
    | hit moved free hit observer stop =>
      refine .requested (Nat.succ_pos _) (Debugger.undisturbed_zero _) (fun stopped => ?_)
        ((Debugger.hitsAt_zero moved).2 hit) (Machine.after_succ moved 0) ?_
      · obtain ⟨active, blocks⟩ := Debugger.stopsBefore_zero.1 stopped
        exact free active blocks
      · exact congrArg Debugger.lastEvent observer
  | more step quiet rest ih =>
    have next : Ready _ := ⟨(hooks_step step).trans ready.hooks, (ready.coherent.step step).1, quiet⟩
    cases ready.debugged step with
    | passed moved free unwatched observer still =>
      refine (ih next).cons moved (fun stopped => ?_) (fun writes => ?_) observer
      · obtain ⟨active, blocks⟩ := Debugger.stopsBefore_zero.1 stopped
        exact free active blocks
      · obtain ⟨s, member, watched⟩ := (Debugger.writesWatched_zero moved).1 writes
        exact unwatched s member watched
    | hit moved free hit observer stop =>
      rw [quiet] at stop
      cases stop

end Interpreter

end Chip8
