import Chip8.Proofs.Fittings
import Chip8.Proofs.Journal
import Chip8.Proofs.Stopping

/-! What a reset gives back.

A reset gives a new emulator with the same settings and with what a reset is to keep. It also keeps
two things that a new emulator does not have: the entries of the journal, which nothing reads, and
the pass of a breakpoint, which lets the next run go past a breakpoint where an earlier run stopped.
-/

set_option autoImplicit false

namespace Chip8.Emulator

variable {e left : Emulator}

/-! ### Resets -/

/-- A new emulator with the settings of another and all that a reset of the other is to keep: its
frequency, random bytes, held keys, program name, breakpoints and watchpoints. -/
def renewed (e : Emulator) : Except (ClockError Quantity) Emulator :=
  (create e.settings .blank e.machine.keypad).map fun new =>
    let new := new.onMachine ({ · with random := e.machine.random })
    let new := new.onDebugger ({ · with
      breakpoints := e.debugger.breakpoints, watchpoints := e.debugger.watchpoints })
    { new with
      clock := { new.clock with frequency := e.clock.frequency }, programName := e.programName }

structure Fitted (e : Emulator) : Prop where
  positive : ∃ clock : SystemClock, Clock.start e.settings.frequency = .ok clock
  fittings : e.fittings = (e.settings, e.settings.cacheDecoded, e.settings.watchMemory)

theorem fitted_of_create {settings : Settings} {screen : Screen} {keypad : Keypad} {entropy : Int}
    (created : create settings screen keypad entropy = .ok e) : e.Fitted := by
  unfold create at created
  split at created
  · cases created
  · next clock start =>
    cases created
    refine ⟨⟨clock, start⟩, ?_⟩
    rw [fittings_reset]
    have cached : (if settings.cacheDecoded then some (∅ : DecodeCache) else none).isSome =
        settings.cacheDecoded := by
      cases settings.cacheDecoded <;> rfl
    have watched : (Memory.zeros memorySize settings.watchMemory).tally.isSome =
        settings.watchMemory := by
      cases settings.watchMemory <;> rfl
    exact Prod.ext rfl (Prod.ext cached watched)

theorem Reachable.fitted (reachable : e.Reachable) : e.Fitted := by
  induction reachable with
  | created created => exact fitted_of_create created
  | @performed e request earlier ih =>
    have same := e.fittings_perform request
    have settings : (e.perform request).2.settings = e.settings := congrArg Prod.fst same
    exact ⟨settings ▸ ih.positive, by rw [same, settings, ih.fittings]⟩

theorem map_const_congr {α β : Type} {x y : Option α} (same : x.isSome = y.isSome) (b : β) :
    x.map (fun _ => b) = y.map fun _ => b := by
  cases x with
  | none =>
    cases y with
    | none => rfl
    | some a => cases same
  | some a =>
    cases y with
    | none => cases same
    | some a' => rfl

theorem powerOnMemory_congr {m n : Memory memorySize}
    (watched : m.tally.isSome = n.tally.isSome) : powerOnMemory m = powerOnMemory n := by
  simp only [powerOnMemory, Memory.resetCounters, Memory.store, Memory.reset, Option.map_map]
  exact congrArg (Memory.mk _) (map_const_congr watched Tally.zero)

/-- A reset gives a new emulator with the pass and the journal of the old one. -/
theorem Reachable.reset_eq (reachable : e.Reachable) :
    ∃ new, e.renewed = .ok new ∧ new.debugger.pass = none ∧
      e.reset = (new.behind e.journal).onDebugger ({ · with pass := e.debugger.pass }) := by
  obtain ⟨⟨clock, start⟩, fittings⟩ := reachable.fitted
  have hooks : e.interpreter.hooks = Debugger.hooks := reachable.ready.hooks
  have cached : e.interpreter.cache.isSome = e.settings.cacheDecoded :=
    congrArg (·.2.1) fittings
  have watched : e.machine.memory.tally.isSome = e.settings.watchMemory :=
    congrArg (·.2.2) fittings
  -- Whether there are counters and a cache is what the settings say.
  have memory : powerOnMemory e.interpreter.machine.memory =
      powerOnMemory (.zeros memorySize e.settings.watchMemory) := by
    apply powerOnMemory_congr
    rw [← machine, watched]
    cases e.settings.watchMemory <;> rfl
  have cache : e.interpreter.cache.map (fun _ => (∅ : DecodeCache)) =
      (if e.settings.cacheDecoded then some (∅ : DecodeCache) else none).map fun _ => ∅ := by
    apply map_const_congr
    rw [cached]
    cases e.settings.cacheDecoded <;> rfl
  simp only [renewed, create, start]
  refine ⟨_, rfl, rfl, ?_⟩
  simp only [reset, onInterpreter, Interpreter.reset, onMachine, onDebugger, behind, log, memory,
    cache, hooks]
  rfl

/-! ### Arrivals -/

/-- A run stops at the first instruction with a breakpoint that it comes to, if nothing has stopped
it before. -/
def StopsOnArrival (e : Emulator) : Prop :=
  ∀ (limit k : Nat) (m : Machine memorySize) (event : StopEvent) (left : Emulator), k < limit →
    e.debugger.Undisturbed e.unbroken k → e.unbroken k = .ok m → m.processor.waiting = false →
      m.processor.pc ∈ e.debugger.breakpoints → e.runSteps limit = (.ok event, left) →
        event.reason = .breakpoint m.processor.pc

theorem Ready.stopsOnArrival (ready : e.Ready) (armed : e.debugger.pass = none) :
    e.StopsOnArrival := by
  intro limit k m event left within calm here active member run
  have stops : e.debugger.StopsBefore e.unbroken k := by
    refine ⟨m, here, active, member, fun passes => ?_⟩
    rw [armed] at passes
    cases passes.1
  have ended : e.Ended left limit (.ok event) := ready.ended run
  cases ended with
  | completed undisturbed => exact absurd stops (undisturbed k within).1
  | @vetoed _ count decoded before undisturbed stopped reached total active' found reason =>
    have early : ¬ count < k := fun earlier => (calm count earlier).1 stopped
    have late : ¬ k < count := fun later => (undisturbed k later).1 stops
    obtain rfl : count = k := by omega
    rw [here] at reached
    obtain rfl := Except.ok.inj reached
    exact reason
  | @requested _ count store before undisturbed free hits =>
    have early : ¬ count < k := fun earlier => (calm count earlier).2 hits.writesWatched
    have late : ¬ k < count := fun later => (undisturbed k later).1 stops
    obtain rfl : count = k := by omega
    exact absurd stops free

theorem pass_loadProgram {data : List UInt8} {name : String}
    (loaded : e.loadProgram data name = .ok left) : left.debugger.pass = e.debugger.pass := by
  obtain ⟨-, rfl⟩ := loadProgram_ok loaded
  rfl

/-- A reset emulator cannot be told from a new one just when no breakpoint may be passed: then all
requests get the same answers and leave the same, but for older entries of the journal, and a program
that is loaded next stops at the first breakpoint that it comes to. -/
theorem reset_renews (reachable : e.Reachable) :
    ∃ new, e.renewed = .ok new ∧
      (e.debugger.pass = none ↔ ∀ requests, e.reset.performAll requests =
        ((new.performAll requests).1, (new.performAll requests).2.behind e.journal)) ∧
      (e.debugger.pass = none → ∀ data name loaded,
        e.reset.loadProgram data name = .ok loaded → loaded.StopsOnArrival) := by
  obtain ⟨new, renewed, unpassed, reset⟩ := reachable.reset_eq
  refine ⟨new, renewed, ⟨fun armed requests => ?_, fun same => ?_⟩,
    fun armed data name loaded load => ?_⟩
  · have same : e.reset = new.behind e.journal := by
      rw [reset, armed, ← unpassed]
      rfl
    rw [same, performAll_behind]
  · -- No requests at all already leave the pass in place.
    have left : e.reset = new.behind e.journal := congrArg Prod.snd (same [])
    have kept : e.reset.debugger.pass = new.debugger.pass := by rw [left, debugger_behind]
    exact kept.trans unpassed
  · have ready := (reachable.performed .reset).ready.loadProgram load
    apply ready.stopsOnArrival
    rw [pass_loadProgram load]
    exact armed

/-- A session that was stopped at a breakpoint and then stepped past it has no pass. -/
theorem reset_renews_session :
    let stepped := (session.1.perform .step).2
    let again := [.load storeOnce "store", .runSteps 10]
    stepped.Reachable ∧ stepped.debugger.pass = none ∧ ∃ new, stepped.renewed = .ok new ∧
      (stepped.reset.performAll again).1 = (new.performAll again).1 := by
  intro stepped again
  have reachable : stepped.Reachable := session.2.performed .step
  have armed : stepped.debugger.pass = none := by decide +kernel
  obtain ⟨new, renewed, same, -⟩ := reset_renews reachable
  have outcomes := congrArg Prod.fst (same.1 armed again)
  exact ⟨reachable, armed, new, renewed, outcomes⟩

def stoppedAtStart : { e : Emulator // e.Reachable } :=
  ⟨_, reachable_usual.performAll
    [.load storeOnce "store", .addBreakpoint 0x200, .runSteps 10]⟩

def newAtStart : Emulator :=
  stoppedAtStart.1.renewed.toOption.get (by decide +kernel)

/-- With the pass that it keeps, a reset emulator goes past the breakpoint where a new one stops. -/
theorem reset_passes_breakpoint : stoppedAtStart.1.renewed = .ok newAtStart ∧
    let reset := (stoppedAtStart.1.reset.perform (.load storeOnce "store")).2
    let fresh := (newAtStart.perform (.load storeOnce "store")).2
    (reset.runSteps 1).1 = .ok ⟨.stepLimit 0x202, "Reached max steps (1)"⟩ ∧
      (fresh.runSteps 1).1 = .ok { reason := .breakpoint 0x200 } := by
  have renewed : stoppedAtStart.1.renewed.toOption = some newAtStart := by
    rw [newAtStart, Option.some_get]
  refine ⟨eq_ok_of_toOption renewed, eq_ok_of_toOption ?_, eq_ok_of_toOption ?_⟩
  · decide +kernel
  · decide +kernel

end Chip8.Emulator
