import Chip8.Proofs.EmulatorRun
import Chip8.Proofs.Shadow

/-! An emulator that caches instructions and one that does not, side by side.

Runs, single steps and changes from outside keep the two together, with equal results.
-/

set_option autoImplicit false

namespace Chip8

inductive Agree {ε α β : Type} (related : α → β → Prop) : Except ε α → Except ε β → Prop where
  | error (error : ε) : Agree related (.error error) (.error error)
  | ok {a : α} {b : β} : related a b → Agree related (.ok a) (.ok b)

theorem Agree.map {ε α β γ δ : Type} {related : α → β → Prop} {related' : γ → δ → Prop}
    {x : Except ε α} {y : Except ε β} (agree : Agree related x y) {f : α → γ} {g : β → δ}
    (carried : ∀ a b, related a b → related' (f a) (g b)) :
    Agree related' (x.map f) (y.map g) := by
  cases agree with
  | error error => exact .error error
  | ok held => exact .ok (carried _ _ held)

theorem Agree.of_eq {ε α : Type} {x y : Except ε α} (same : x = y) : Agree Eq x y := by
  subst same
  cases x with
  | error error => exact .error error
  | ok a => exact .ok rfl

/-! ### Memory -/

namespace Memory

variable {size : Nat}

structure Shadows (cached plain : Memory size) : Prop where
  bytes : cached.bytes = plain.bytes
  counts : cached.CountedAtMost plain

variable {cached plain : Memory size}

theorem Shadows.countRead (shadows : cached.Shadows plain) (start count : Nat) :
    (cached.countRead start count).Shadows (plain.countRead start count) :=
  ⟨shadows.bytes, shadows.counts.countRead start count⟩

theorem Shadows.store (shadows : cached.Shadows plain) (start : Nat) (data : List UInt8) :
    (cached.store start data).Shadows (plain.store start data) where
  bytes := congrArg (storeFrom · start data) shadows.bytes
  counts := shadows.counts.store start data

theorem Shadows.byteAt (shadows : cached.Shadows plain) (a : Nat) :
    cached.byteAt a = plain.byteAt a := by
  simp only [Memory.byteAt, shadows.bytes]

theorem Shadows.read (shadows : cached.Shadows plain) (address : Int) :
    Agree (fun x y => x.1 = y.1 ∧ x.2.Shadows y.2 ∧ x.2.bytes = cached.bytes)
      (cached.read address) (plain.read address) := by
  unfold Memory.read
  split
  · exact .error _
  · exact .ok ⟨shadows.byteAt _, shadows.countRead _ _, rfl⟩

theorem Shadows.readRange (shadows : cached.Shadows plain) (start count : Int) :
    Agree (fun x y => x.1 = y.1 ∧ x.2.Shadows y.2 ∧ x.2.bytes = cached.bytes)
      (cached.readRange start count) (plain.readRange start count) := by
  unfold Memory.readRange
  split
  · exact .ok ⟨rfl, shadows, rfl⟩
  · split
    · exact .error _
    · have same : cached.byteAt = plain.byteAt := funext shadows.byteAt
      exact .ok ⟨by rw [same], shadows.countRead _ _, rfl⟩

theorem Shadows.powerOn {cached plain : Memory memorySize} (shadows : cached.Shadows plain) :
    (Emulator.powerOnMemory cached).Shadows (Emulator.powerOnMemory plain) where
  bytes := rfl
  counts := by
    have stored := Memory.CountedAtMost.store (m := cached.reset) (n := plain.reset) shadows.counts
      0 glyphs
    -- The counters start at zero again, whatever they came to.
    exact stored.map rfl rfl fun _ _ _ => Tally.AtMost.refl .zero

end Memory

/-! ### Changes from outside -/

namespace Machine

variable {size : Nat} {cached plain : Machine size}

theorem Shadows.memory (shadows : cached.Shadows plain) : cached.memory.Shadows plain.memory where
  bytes := by
    have same := congrArg (·.memory.bytes) shadows.same
    exact same
  counts := shadows.counts

theorem Shadows.change (shadows : cached.Shadows plain) {memory memory' : Memory size}
    (memories : memory.Shadows memory') (rest : Machine size → Machine size)
    (apart : ∀ m : Machine size, (rest m).bare = (rest m.bare).bare) :
    Shadows { rest cached with memory } { rest plain with memory := memory' } where
  same := by
    have same : (rest cached).bare = (rest plain).bare := by
      rw [apart cached, apart plain, shadows.same]
    -- The change left some memory behind; put the new one in its place on both sides.
    have replaced := congrArg (fun m : Machine size => { m with memory := memory.bare }) same
    have bare : memory.bare = memory'.bare := by
      simp only [Memory.bare, memories.bytes]
    rw [bare] at replaced
    simpa only [Machine.bare, bare] using replaced
  counts := memories.counts

end Machine

namespace Interpreter

variable {σ : Type} {size : Nat} {cached plain : Interpreter σ size}

theorem Shadows.onMachine (shadows : cached.Shadows plain) {m n : Machine size}
    (machines : m.Shadows n) (bytes : m.memory.bytes = cached.machine.memory.bytes) :
    Shadows { cached with machine := m } { plain with machine := n } :=
  { shadows with
    machine := machines
    coherent := shadows.coherent.of_bytes_eq bytes rfl }

theorem Shadows.onObserver (shadows : cached.Shadows plain) (change : σ → σ) :
    Shadows { cached with observer := change cached.observer }
      { plain with observer := change plain.observer } :=
  { shadows with
    coherent := shadows.coherent.of_bytes_eq rfl rfl
    observer := congrArg change shadows.observer }

theorem Shadows.stored (shadows : cached.Shadows plain) (start : Int) (data : List UInt8)
    (inside : 0 ≤ start ∨ data = []) :
    Shadows
      ({ cached with machine := { cached.machine with
          memory := cached.machine.memory.store start.toNat data } }.invalidate start data.length)
      ({ plain with machine := { plain.machine with
          memory := plain.machine.memory.store start.toNat data } }.invalidate start data.length) :=
  { shadows with
    machine := shadows.machine.change (shadows.machine.memory.store _ _) id fun _ => rfl
    coherent := shadows.coherent.stored inside rfl rfl
    uncached := by
      have none := congrArg (Option.map (·.forget start data.length)) shadows.uncached
      exact none }

end Interpreter

/-! ### Emulators -/

namespace Emulator

/-- An emulator beside one without a cache. -/
structure Shadows (cached plain : Emulator) : Prop where
  interpreter : cached.interpreter.Shadows plain.interpreter
  frameSteps : cached.settings.frameSteps = plain.settings.frameSteps
  clock : cached.clock = plain.clock
  lastFault : cached.lastFault = plain.lastFault
  programName : cached.programName = plain.programName
  totalSteps : cached.totalSteps = plain.totalSteps
  totalTimerEvents : cached.totalTimerEvents = plain.totalTimerEvents
  journal : cached.journal = plain.journal

/-- Two outcomes that are the same but for the cache. -/
def Alike {α : Type} (x y : α × Emulator) : Prop :=
  ∃ result left right, x = (result, left) ∧ y = (result, right) ∧ left.Shadows right

theorem Alike.of {α : Type} (result : α) {left right : Emulator} (shadows : left.Shadows right) :
    Alike (result, left) (result, right) :=
  ⟨result, left, right, rfl, rfl, shadows⟩

variable {cached plain : Emulator}

theorem Shadows.log (shadows : cached.Shadows plain) (level : Level) {message message' : String}
    (same : message = message') : (cached.log level message).Shadows (plain.log level message') :=
  { shadows with journal := by simp only [Emulator.log, shadows.journal, same] }

theorem Shadows.onDebugger (shadows : cached.Shadows plain) (change : Debugger → Debugger) :
    (cached.onDebugger change).Shadows (plain.onDebugger change) :=
  { shadows with interpreter := shadows.interpreter.onObserver change }

theorem Shadows.debugger (shadows : cached.Shadows plain) : cached.debugger = plain.debugger :=
  shadows.interpreter.observer

theorem Shadows.processor (shadows : cached.Shadows plain) : cached.processor = plain.processor :=
  shadows.interpreter.machine.processor

theorem Shadows.afterSteps (shadows : cached.Shadows plain) (ran : Nat)
    {i j : Interpreter Debugger memorySize} (interpreters : i.Shadows j) :
    (cached.afterSteps ran i).Shadows (plain.afterSteps ran j) :=
  { shadows with
    interpreter := interpreters
    totalSteps := congrArg (· + ran) shadows.totalSteps }

theorem Shadows.noteFault (shadows : cached.Shadows plain) (fault : Fault) :
    (cached.noteFault fault).Shadows (plain.noteFault fault) := by
  have noted : Shadows { cached with lastFault := some fault } { plain with lastFault := some fault } :=
    { shadows with lastFault := rfl }
  exact noted.log .error (by rw [shadows.programName])

theorem Shadows.stopped (shadows : cached.Shadows plain) : cached.stopped.Shadows plain.stopped :=
  shadows.log .warning (by rw [shadows.programName, shadows.debugger])

/-! ### Runs -/

theorem Shadows.runUpTo (shadows : cached.Shadows plain) (count : Int) :
    Alike (cached.runUpTo count) (plain.runUpTo count) := by
  obtain ⟨halt, ran, i, way⟩ := cached.interpreter.exists_ran count.toNat
  obtain ⟨j, way', interpreters⟩ := shadows.interpreter.ran way
  have left := shadows.afterSteps ran interpreters
  cases halt with
  | completed =>
    rw [runUpTo_completed way, runUpTo_completed way']
    exact .of _ left
  | failed fault =>
    rw [runUpTo_failed way, runUpTo_failed way']
    exact .of _ (left.noteFault fault)
  | vetoed =>
    rw [runUpTo_vetoed way, runUpTo_vetoed way', interpreters.observer]
    exact .of _ left.stopped
  | requested =>
    rw [runUpTo_requested way, runUpTo_requested way', interpreters.observer]
    exact .of _ left.stopped

theorem Shadows.countDown {i j : Interpreter Debugger memorySize} (interpreters : i.Shadows j)
    (count : Nat) : Interpreter.Shadows (count.repeat Interpreter.countDown i)
      (count.repeat Interpreter.countDown j) := by
  induction count with
  | zero => exact interpreters
  | succ count ih => exact ih.onMachine (ih.machine.onProcessor Processor.countDown) rfl

theorem Shadows.applyTimerEvents (shadows : cached.Shadows plain) (count : Nat) :
    (cached.applyTimerEvents count).Shadows (plain.applyTimerEvents count) :=
  { shadows with
    interpreter := Shadows.countDown shadows.interpreter count
    totalTimerEvents := congrArg (· + count) shadows.totalTimerEvents }

theorem Shadows.runAndFinish (shadows : cached.Shadows plain) (count : Int)
    {finish : Emulator → StopEvent × Emulator}
    (finished : ∀ left right : Emulator, left.Shadows right →
      (finish left).1 = (finish right).1 ∧ (finish left).2.Shadows (finish right).2) :
    Alike (cached.runAndFinish count finish) (plain.runAndFinish count finish) := by
  obtain ⟨result, left, right, run, run', follows⟩ := shadows.runUpTo count
  simp only [Emulator.runAndFinish, run, run']
  cases result with
  | error fault => exact .of _ follows
  | ok stopped =>
    cases stopped with
    | some event => exact .of _ follows
    | none =>
      obtain ⟨same, ended⟩ := finished left right follows
      dsimp only
      rw [same]
      exact .of _ ended

theorem Shadows.runSteps (shadows : cached.Shadows plain) (limit : Int) :
    Alike (cached.runSteps limit) (plain.runSteps limit) := by
  rw [runSteps_eq, runSteps_eq]
  refine shadows.runAndFinish limit fun left right follows => ⟨?_, follows⟩
  rw [atLimit, atLimit, follows.processor]

theorem Shadows.tick (shadows : cached.Shadows plain) : Alike cached.tick plain.tick := by
  rw [tick_eq, tick_eq, shadows.frameSteps]
  refine shadows.runAndFinish _ fun left right follows => ⟨?_, follows.applyTimerEvents 1⟩
  rw [atFrame, atFrame, (follows.applyTimerEvents 1).processor]

theorem Shadows.runTicks (shadows : cached.Shadows plain) (ticks : Ticks) :
    Alike (cached.runTicks ticks) (plain.runTicks ticks) := by
  rw [runTicks_eq, runTicks_eq]
  refine shadows.runAndFinish _ fun left right follows =>
    ⟨?_, follows.applyTimerEvents ticks.timerEvents⟩
  rw [atElapsed, atElapsed, (follows.applyTimerEvents ticks.timerEvents).processor]

theorem Shadows.run (shadows : cached.Shadows plain) (elapsed : Quantity) :
    Alike (cached.run elapsed) (plain.run elapsed) := by
  unfold Emulator.run
  rw [shadows.clock]
  split
  · exact .of _ shadows
  · next ticks clock advanced =>
    have ticking : Shadows { cached with clock } { plain with clock } :=
      { shadows with clock := rfl }
    obtain ⟨result, left, right, run, run', follows⟩ := ticking.runTicks ticks
    simp only [run, run']
    match result with
    | .error fault => exact .of _ follows
    | .ok event => exact .of _ follows

theorem Shadows.step (shadows : cached.Shadows plain) : Alike cached.step plain.step := by
  -- A single step runs with its hook taken away, and puts the hook back.
  have unasked : cached.interpreter.unasked.Shadows plain.interpreter.unasked :=
    { shadows.interpreter with
      coherent := shadows.interpreter.coherent.of_bytes_eq rfl rfl
      hooks := congrArg (fun hooks => { hooks with onInstruction := none })
        shadows.interpreter.hooks }
  match step : cached.interpreter.unasked.step with
  | (.error fault, i) =>
    obtain ⟨j, step', interpreters⟩ := unasked.step step
    rw [step_failed step, step_failed step']
    refine .of _ (Shadows.noteFault ?_ fault)
    exact { shadows with
      interpreter := { interpreters with
        coherent := interpreters.coherent.of_bytes_eq rfl rfl
        hooks := shadows.interpreter.hooks } }
  | (.ok go, i) =>
    obtain rfl := Interpreter.unasked_step step
    obtain ⟨j, step', interpreters⟩ := unasked.step step
    have disarmed : (disarmed i cached.interpreter.hooks).Shadows
        (disarmed j plain.interpreter.hooks) :=
      { interpreters with
        coherent := interpreters.coherent.of_bytes_eq rfl rfl
        hooks := shadows.interpreter.hooks
        observer := congrArg Debugger.clearPass interpreters.observer
        stopRequested := rfl }
    have left := shadows.afterSteps 1 disarmed
    rw [step_ran step, step_ran step', stepEvent, stepEvent, left.processor]
    exact .of _ left

theorem alike_reached (address : Int) {x y : Except Fault StopEvent × Emulator}
    (alike : Alike x y) : Alike (runUntil.reached address x) (runUntil.reached address y) := by
  obtain ⟨result, left, right, rfl, rfl, follows⟩ := alike
  cases result with
  | error fault => exact .of _ follows
  | ok event => exact .of _ follows

theorem Shadows.runUntil (shadows : cached.Shadows plain) (address limit : Int) :
    Alike (cached.runUntil address limit) (plain.runUntil address limit) := by
  unfold Emulator.runUntil
  rw [shadows.debugger]
  split
  · exact alike_reached address (shadows.runSteps limit)
  · have armed := shadows.onDebugger (·.addBreakpoint address)
    obtain ⟨result, left, right, run, run', follows⟩ := alike_reached address (armed.runSteps limit)
    simp only [run, run']
    exact .of _ (follows.onDebugger (·.removeBreakpoint address))

end Emulator

end Chip8
