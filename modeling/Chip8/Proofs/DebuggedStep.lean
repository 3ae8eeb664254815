import Chip8.Proofs.Advance
import Chip8.Proofs.Request

/-! Steps under a debugger.

A breakpoint keeps an instruction from running; everything else that a debugger does to a step is to
take note of it. A step that ran leaves what the machine on its own comes to, and the debugger's last
event is then the highest of the watched bytes that the step wrote.
-/

set_option autoImplicit false

namespace Chip8

namespace Debugger

/-- Whether the next check stops before the instruction at an address. -/
def Blocks (d : Debugger) (pc : Int) : Prop :=
  pc ∈ d.breakpoints ∧ d.pass ≠ some pc

def stoppedAt (d : Debugger) (pc : Int) : Debugger :=
  { d with pass := some pc, lastEvent := some { reason := .breakpoint pc } }

def wrote (d : Debugger) (store : Store) : Debugger :=
  { d with lastEvent := some { reason := .write store.address store.value.toNat } }

theorem checkInstruction_of_blocks {d : Debugger} {pc : Int} (blocks : d.Blocks pc) :
    d.checkInstruction pc = (false, d.stoppedAt pc) := by
  rw [checkInstruction, if_pos blocks.1, if_neg blocks.2, stoppedAt]

theorem checkInstruction_of_passes {d : Debugger} {pc : Int} (passes : ¬ d.Blocks pc) :
    d.checkInstruction pc = (true, d.clearPass) := by
  unfold checkInstruction
  split
  · next member =>
    rw [if_pos]
    exact Decidable.not_not.1 fun armed => passes ⟨member, armed⟩
  · rfl

/-- The debugger after a step that nothing stopped: only instructions are checked. -/
def passing (d : Debugger) (waiting : Bool) : Debugger :=
  if waiting then d else d.clearPass

@[simp] theorem breakpoints_passing (d : Debugger) (waiting : Bool) :
    (d.passing waiting).breakpoints = d.breakpoints := by
  cases waiting <;> rfl

@[simp] theorem watchpoints_passing (d : Debugger) (waiting : Bool) :
    (d.passing waiting).watchpoints = d.watchpoints := by
  cases waiting <;> rfl

def Watches (d : Debugger) (store : Store) : Prop :=
  (store.address : Int) ∈ d.watchpoints

instance (d : Debugger) (store : Store) : Decidable (d.Watches store) :=
  inferInstanceAs (Decidable (_ ∈ _))

structure HighestHit (d : Debugger) (stores : List Store) (store : Store) : Prop where
  member : store ∈ stores
  watched : d.Watches store
  highest : ∀ other ∈ stores, d.Watches other → other.address ≤ store.address

end Debugger

namespace Interpreter

variable {size : Nat} {i j : Interpreter Debugger size}

theorem ask_debugged (hooks : i.hooks = Debugger.hooks) (pc : Int) (word : Word) :
    i.ask pc word =
      ((i.observer.checkInstruction pc).1,
        { i with observer := (i.observer.checkInstruction pc).2 }) := by
  simp only [ask, hooks, Debugger.hooks]

-- The hook is the debugger's check of breakpoints: it stops, or uses up the pass.
theorem asked (hooks : i.hooks = Debugger.hooks) {pc : Int} {word : Word} {go : Bool}
    (ask : i.ask pc word = (go, j)) :
    i.observer.Blocks pc ∧ go = false ∧ j = { i with observer := i.observer.stoppedAt pc } ∨
      ¬ i.observer.Blocks pc ∧ go = true ∧ j = { i with observer := i.observer.clearPass } := by
  rw [ask_debugged hooks] at ask
  by_cases blocks : i.observer.Blocks pc
  · rw [Debugger.checkInstruction_of_blocks blocks] at ask
    cases ask
    exact .inl ⟨blocks, rfl, rfl⟩
  · rw [Debugger.checkInstruction_of_passes blocks] at ask
    cases ask
    exact .inr ⟨blocks, rfl, rfl⟩

theorem tell_of_watched (hooks : i.hooks = Debugger.hooks) {store : Store}
    (watched : i.observer.Watches store) :
    i.tell store = { i with observer := i.observer.wrote store, stopRequested := true } := by
  have member : (store.address : Int) ∈ i.observer.watchpoints := watched
  simp only [tell, hooks, Debugger.hooks, Debugger.checkWrite, if_pos member, Debugger.wrote,
    Bool.not_false, Bool.or_true]

theorem tell_of_unwatched (hooks : i.hooks = Debugger.hooks) {store : Store}
    (unwatched : ¬ i.observer.Watches store) : i.tell store = i := by
  obtain ⟨machine, cache, installed, observer, stopRequested⟩ := i
  obtain rfl : installed = Debugger.hooks := hooks
  have member : (store.address : Int) ∉ observer.watchpoints := unwatched
  simp only [tell, Debugger.hooks, Debugger.checkWrite, if_neg member, Bool.not_true,
    Bool.or_false]

theorem foldl_tell_debugged (hooks : i.hooks = Debugger.hooks) {stores : List Store}
    (upwards : stores.Pairwise fun s t => s.address < t.address) :
    (∀ s ∈ stores, ¬ i.observer.Watches s) ∧ stores.foldl tell i = i ∨
      ∃ s, i.observer.HighestHit stores s ∧ stores.foldl tell i =
        { i with observer := i.observer.wrote s, stopRequested := true } := by
  induction stores generalizing i with
  | nil => exact .inl ⟨nofun, rfl⟩
  | cons first stores ih =>
    obtain ⟨below, upwards⟩ := List.pairwise_cons.1 upwards
    rw [List.foldl_cons]
    by_cases watched : i.observer.Watches first
    · rw [tell_of_watched hooks watched]
      -- Stores go upwards, so a later hit is a higher one, and it is the one told of last.
      have told := ih (i := { i with observer := i.observer.wrote first, stopRequested := true })
        hooks upwards
      rcases told with ⟨unwatched, same⟩ | ⟨s, hit, last⟩
      · refine .inr ⟨first, ⟨List.mem_cons_self, watched, fun other member hits => ?_⟩, same⟩
        rcases List.mem_cons.1 member with rfl | member
        · exact Nat.le_refl _
        · exact absurd hits (unwatched other member)
      · refine .inr ⟨s, ⟨List.mem_cons_of_mem _ hit.member, hit.watched, ?_⟩, last⟩
        intro other member hits
        rcases List.mem_cons.1 member with rfl | member
        · exact Nat.le_of_lt (below s hit.member)
        · exact hit.highest other member hits
    · rw [tell_of_unwatched hooks watched]
      rcases ih hooks upwards with ⟨unwatched, same⟩ | ⟨s, hit, last⟩
      · exact .inl ⟨List.forall_mem_cons.2 ⟨watched, unwatched⟩, same⟩
      · refine .inr ⟨s, ⟨List.mem_cons_of_mem _ hit.member, hit.watched, ?_⟩, last⟩
        intro other member hits
        rcases List.mem_cons.1 member with rfl | member
        · exact absurd hits watched
        · exact hit.highest other member hits

theorem noteStores_debugged (hooks : i.hooks = Debugger.hooks) {stores : List Store}
    (upwards : stores.Pairwise fun s t => s.address < t.address) :
    (∀ s ∈ stores, ¬ i.observer.Watches s) ∧ (i.noteStores stores).observer = i.observer ∧
        (i.noteStores stores).stopRequested = i.stopRequested ∨
      ∃ s, i.observer.HighestHit stores s ∧
        (i.noteStores stores).observer = i.observer.wrote s ∧
          (i.noteStores stores).stopRequested = true := by
  unfold noteStores
  -- Telling does not look at the cache.
  generalize i.cache.map _ = cache
  rcases foldl_tell_debugged (i := { i with cache }) hooks upwards with
    ⟨unwatched, same⟩ | ⟨s, hit, last⟩
  · exact .inl ⟨unwatched, by rw [same], by rw [same]⟩
  · exact .inr ⟨s, hit, by rw [last], by rw [last]⟩

/-- The result of a step under a debugger and what it leaves, case by case. -/
inductive Debugged (i j : Interpreter Debugger size) : Except Fault Bool → Prop where
  | blocked {decoded : Decoded} (active : i.machine.processor.waiting = false)
      (found : i.machine.decoded i.machine.processor.pc = .ok decoded)
      (blocks : i.observer.Blocks i.machine.processor.pc)
      (machine : j.machine.bare = i.machine.bare)
      (observer : j.observer = i.observer.stoppedAt i.machine.processor.pc) :
      Debugged i j (.ok false)
  -- An instruction that cannot be decoded fails before it is checked.
  | faulted {fault : Fault} (active : i.machine.processor.waiting = false)
      (failed : i.machine.bare.advance = .error fault)
      (unchecked : i.observer.Blocks i.machine.processor.pc →
        ∃ cause, i.machine.decoded i.machine.processor.pc = .error cause) :
      Debugged i j (.error fault)
  | passed {stores : List Store}
      (moved : i.machine.bare.advance = .ok (j.machine.bare, stores))
      (free : i.machine.processor.waiting = false → ¬ i.observer.Blocks i.machine.processor.pc)
      (unwatched : ∀ s ∈ stores, ¬ i.observer.Watches s)
      (observer : j.observer = i.observer.passing i.machine.processor.waiting)
      (quiet : j.stopRequested = false) : Debugged i j (.ok true)
  | hit {stores : List Store} {store : Store}
      (moved : i.machine.bare.advance = .ok (j.machine.bare, stores))
      (free : i.machine.processor.waiting = false → ¬ i.observer.Blocks i.machine.processor.pc)
      (hit : i.observer.HighestHit stores store)
      (observer : j.observer = (i.observer.passing i.machine.processor.waiting).wrote store)
      (requested : j.stopRequested = true) : Debugged i j (.ok true)

/-- Every step of an interpreter under a debugger goes in one of these ways. -/
theorem Ready.debugged (ready : i.Ready) {result : Except Fault Bool} (step : i.step = (result, j)) :
    Debugged i j result := by
  have bare := (ready.coherent.step step).2
  generalize left : j.bare = k at bare
  have machine : j.machine.bare = k.machine := by rw [← left, machine_bare]
  have observer : j.observer = k.observer := by rw [← left, Interpreter.bare]
  have stops : j.stopRequested = k.stopRequested := by rw [← left, Interpreter.bare]
  have found {result} (found : i.bare.machine.decoded i.bare.machine.processor.pc = result) :
      i.machine.decoded i.machine.processor.pc = result :=
    (Machine.decoded_bare _ _).symm.trans found
  have asked {word : Word} {go : Bool} {asked : Interpreter Debugger size}
      (ask : i.bare.ask i.bare.machine.processor.pc word = (go, asked)) :
      i.observer.Blocks i.machine.processor.pc ∧ go = false ∧ asked =
          { i.bare with observer := i.observer.stoppedAt i.machine.processor.pc } ∨
        ¬ i.observer.Blocks i.machine.processor.pc ∧ go = true ∧ asked =
          { i.bare with observer := i.observer.clearPass } :=
    Interpreter.asked (i := i.bare) ready.hooks ask
  cases advanced bare with
  -- A look at the keypad stores nothing and is not checked.
  | polled waiting =>
    have unwatched : ∀ store ∈ ([] : List Store), ¬ i.observer.Watches store :=
      fun _ member => absurd member List.not_mem_nil
    refine .passed ?_ ?_ unwatched ?_ ?_
    · rw [machine]
      exact Machine.advance_of_waiting waiting
    · intro active
      exact absurd (active.symm.trans waiting) Bool.false_ne_true
    · rw [observer, show i.machine.processor.waiting = true from waiting]
      rfl
    · exact stops.trans ready.quiet
  | unfetched active undecoded =>
    exact .faulted active (Machine.advance_of_undecoded active undecoded) fun _ =>
      ⟨_, found undecoded⟩
  | vetoed active decoded ask =>
    obtain ⟨blocks, -, rfl⟩ | ⟨-, impossible, -⟩ := asked ask
    · exact .blocked active (found decoded) blocks machine observer
    · cases impossible
  | failed active decoded ask failed =>
    obtain ⟨-, impossible, -⟩ | ⟨passes, -, -⟩ := asked ask
    · cases impossible
    · exact .faulted active (Machine.advance_of_failed active decoded failed) fun blocks =>
        absurd blocks passes
  | executed active decoded ask done =>
    obtain ⟨-, impossible, -⟩ | ⟨passes, -, same⟩ := asked ask
    · cases impossible
    · have moved := Machine.advance_of_executed active decoded done
      rw [machine_noteStores] at machine
      dsimp only at machine
      rw [← machine] at moved
      have passing : i.observer.passing i.machine.processor.waiting = i.observer.clearPass := by
        rw [show i.machine.processor.waiting = false from active]
        rfl
      subst same
      rcases noteStores_debugged (i := { i.bare with machine := _, observer := i.observer.clearPass })
          ready.hooks (Machine.pairwise_execute done) with
        ⟨unwatched, kept, still⟩ | ⟨s, hit, wrote, requested⟩
      · refine .passed moved (fun _ => passes) unwatched ?_ ?_
        · rw [passing]
          exact observer.trans kept
        · exact stops.trans (still.trans ready.quiet)
      · refine .hit moved (fun _ => passes) ⟨hit.member, hit.watched, hit.highest⟩ ?_ ?_
        · rw [passing]
          exact observer.trans wrote
        · exact stops.trans requested

end Interpreter

end Chip8
