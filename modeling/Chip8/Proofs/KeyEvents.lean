import Chip8.Proofs.KeyPolling

/-! What happens to an emulator while a program waits for a key.

Steps are taken by any of the loops, timer events come with them or alone, time passes, keys go up
and down. An event whose steps find no held key changes the timers alone, and does the same with
other hooks and with other keys that its steps do not find either.
-/

set_option autoImplicit false

namespace Chip8

namespace Interpreter

/-! ### What waiting leaves -/

variable {i j k : Interpreter Debugger memorySize} {m n : Nat}

/-- What waiting leaves, with so many timer events: all of the machine but the timers and the keys
is unchanged, nothing is forgotten or learned, and no new stop is pending. A breakpoint that would be
passed may be armed again. -/
structure Waited (i : Interpreter Debugger memorySize) (timerEvents : Nat)
    (j : Interpreter Debugger memorySize) : Prop where
  pc : j.machine.processor.pc = i.machine.processor.pc
  index : j.machine.processor.index = i.machine.processor.index
  registers : j.machine.processor.v = i.machine.processor.v
  stack : j.machine.processor.stack = i.machine.processor.stack
  waiting : j.machine.processor.waiting = i.machine.processor.waiting
  keyRegister : j.machine.processor.keyRegister = i.machine.processor.keyRegister
  -- A timer that has run down stays at zero.
  delay : j.machine.processor.delay.toNat = i.machine.processor.delay.toNat - timerEvents
  sound : j.machine.processor.sound.toNat = i.machine.processor.sound.toNat - timerEvents
  memory : j.machine.memory = i.machine.memory
  screen : j.machine.screen = i.machine.screen
  random : j.machine.random = i.machine.random
  cache : j.cache = i.cache
  hooks : j.hooks = i.hooks
  debugger : j.observer = i.observer ∨ j.observer = i.observer.clearPass
  stops : i.stopRequested = false → j.stopRequested = false

/-- Timer events change the timers alone, each of them by one for each event. -/
theorem repeat_countDown (p : Processor) (n : Nat) :
    ∃ delay sound, n.repeat Processor.countDown p = { p with delay, sound } ∧
      delay.toNat = p.delay.toNat - n ∧ sound.toNat = p.sound.toNat - n := by
  induction n with
  | zero => exact ⟨p.delay, p.sound, rfl, rfl, rfl⟩
  | succ n ih =>
    obtain ⟨delay, sound, same, first, second⟩ := ih
    rw [Nat.repeat, same]
    refine ⟨_, _, rfl, ?_, ?_⟩
    · rw [Processor.toNat_countDown, first, Nat.sub_sub]
    · rw [Processor.toNat_countDown, second, Nat.sub_sub]

theorem Waited.of_counted
    (processor : j.machine.processor = m.repeat Processor.countDown i.machine.processor)
    (memory : j.machine.memory = i.machine.memory) (screen : j.machine.screen = i.machine.screen)
    (random : j.machine.random = i.machine.random) (cache : j.cache = i.cache)
    (hooks : j.hooks = i.hooks)
    (debugger : j.observer = i.observer ∨ j.observer = i.observer.clearPass)
    (stops : i.stopRequested = false → j.stopRequested = false) : i.Waited m j := by
  obtain ⟨delay, sound, counted, first, second⟩ := repeat_countDown i.machine.processor m
  rw [counted] at processor
  exact {
    pc := congrArg (·.pc) processor
    index := congrArg (·.index) processor
    registers := congrArg (·.v) processor
    stack := congrArg (·.stack) processor
    waiting := congrArg (·.waiting) processor
    keyRegister := congrArg (·.keyRegister) processor
    delay := by rw [processor, ← first]
    sound := by rw [processor, ← second]
    memory, screen, random, cache, hooks, debugger, stops }

theorem Waited.refl (i : Interpreter Debugger memorySize) : i.Waited 0 i :=
  .of_counted rfl rfl rfl rfl rfl rfl (.inl rfl) id

theorem Waited.trans (earlier : i.Waited m j) (later : j.Waited n k) : i.Waited (m + n) k where
  pc := later.pc.trans earlier.pc
  index := later.index.trans earlier.index
  registers := later.registers.trans earlier.registers
  stack := later.stack.trans earlier.stack
  waiting := later.waiting.trans earlier.waiting
  keyRegister := later.keyRegister.trans earlier.keyRegister
  delay := by rw [later.delay, earlier.delay, Nat.sub_sub]
  sound := by rw [later.sound, earlier.sound, Nat.sub_sub]
  memory := later.memory.trans earlier.memory
  screen := later.screen.trans earlier.screen
  random := later.random.trans earlier.random
  cache := later.cache.trans earlier.cache
  hooks := later.hooks.trans earlier.hooks
  debugger := by
    rcases earlier.debugger with same | armed
    · rw [← same]
      exact later.debugger
    · rcases later.debugger with same | again
      · exact .inr (same.trans armed)
      · refine .inr (again.trans ?_)
        rw [armed]
        rfl
  stops quiet := later.stops (earlier.stops quiet)

/-- A program that waits still waits for the same key and will go on at the same place. -/
theorem Waited.awaits {x : Register} {pc : Int} (waited : i.Waited m j) (awaits : i.Awaits x pc) :
    j.Awaits x pc where
  waiting := waited.waiting.trans awaits.waiting
  register := waited.keyRegister.trans awaits.register
  resumes := waited.pc.trans awaits.resumes

theorem waited_countDown (i : Interpreter Debugger memorySize) (n : Nat) :
    i.Waited n (n.repeat countDown i) := by
  rw [repeat_countDown_eq]
  exact .of_counted rfl rfl rfl rfl rfl rfl (.inl rfl) id

end Interpreter

namespace Emulator

variable {e f : Emulator} {count : Int}

/-! ### Events -/

/-- What may happen to an emulator, or to its interpreter alone, while a program waits. -/
inductive Event where
  | step
  | runSteps (limit : Int)
  | tick
  | run (elapsed : Quantity)
  -- A step of the interpreter alone, which asks the hooks.
  | plainStep
  -- Steps of the interpreter alone and then a timer event.
  | plainFrame (steps : Nat)
  | timerEvent
  | press (name : KeyName)
  | release (name : KeyName)

/-- Let the interpreter alone run; the answer tells whether no instruction was vetoed. -/
def plainly (e : Emulator)
    (run : Interpreter Debugger memorySize →
      Except Fault Bool × Interpreter Debugger memorySize) : Except Refusal Answer × Emulator :=
  let (result, interpreter) := run e.interpreter
  conclude .fault .reached (result, { e with interpreter })

def occur (e : Emulator) : Event → Except Refusal Answer × Emulator
  | .step => e.perform .step
  | .runSteps limit => e.perform (.runSteps limit)
  | .tick => e.perform .tick
  | .run elapsed => e.perform (.run elapsed)
  | .plainStep => e.plainly Interpreter.step
  | .plainFrame steps => e.plainly (Interpreter.frame steps)
  | .timerEvent => (.ok .done, e.onInterpreter Interpreter.countDown)
  | .press name => e.perform (.pressKey name)
  | .release name => e.perform (.releaseKey name)

def occurAll (e : Emulator) : List Event → List (Except Refusal Answer) × Emulator
  | [] => ([], e)
  | event :: events =>
    let (outcome, e) := e.occur event
    let (outcomes, e) := e.occurAll events
    (outcome :: outcomes, e)

/-- The steps and timer events that an elapsed time comes to; none, if the clock refuses it. -/
def ticksOf (e : Emulator) (elapsed : Quantity) : Ticks :=
  match e.clock.advance elapsed with
  | .error _ => ⟨0, 0⟩
  | .ok (ticks, _) => ticks

theorem ticksOf_eq {elapsed : Quantity} {ticks : Ticks} {clock : SystemClock}
    (advanced : e.clock.advance elapsed = .ok (ticks, clock)) : e.ticksOf elapsed = ticks := by
  rw [ticksOf, advanced]

/-- The steps that an event takes if nothing stops it. -/
def stepsDue (e : Emulator) : Event → Nat
  | .step | .plainStep => 1
  | .plainFrame steps => steps
  | .runSteps limit => limit.toNat
  | .tick => e.settings.frameSteps.toNat
  | .run elapsed => (e.ticksOf elapsed).steps
  | .timerEvent | .press _ | .release _ => 0

def timerEventsDue (e : Emulator) : Event → Nat
  | .tick | .plainFrame _ | .timerEvent => 1
  | .run elapsed => (e.ticksOf elapsed).timerEvents
  | .step | .plainStep | .runSteps _ | .press _ | .release _ => 0

def allTimerEventsDue (e : Emulator) : List Event → Nat
  | [] => 0
  | event :: events => e.timerEventsDue event + (e.occur event).2.allTimerEventsDue events

/-- No event that takes steps finds a held key. -/
def Unheard (e : Emulator) : List Event → Prop
  | [] => True
  | event :: events =>
    (0 < e.stepsDue event → e.machine.keypad.keys = []) ∧ (e.occur event).2.Unheard events

instance : (events : List Event) → (e : Emulator) → Decidable (e.Unheard events)
  | [], _ => inferInstanceAs (Decidable True)
  | event :: events, e =>
    have := instDecidableUnheard events (e.occur event).2
    inferInstanceAs (Decidable ((0 < e.stepsDue event → e.machine.keypad.keys = []) ∧
      (e.occur event).2.Unheard events))

/-! ### Single events -/

/-- Neither a fault nor a breakpoint, a watchpoint or a hook has ended anything. -/
def Uneventful : Except Refusal Answer → Prop
  | .ok (.stopped event) => event.isBreak = false
  | .ok (.reached ran) => ran = true
  | .error (.fault _) => False
  | _ => True

/-- What an event that finds no held key does: the timers count down as often as is due, or less
often if a stop was pending. -/
structure Passes (e : Emulator) (due : Nat) (result : Except Refusal Answer × Emulator) : Prop where
  waited : ∃ timerEvents ≤ due, e.interpreter.Waited timerEvents result.2.interpreter
  punctual : e.interpreter.stopRequested = false →
    e.interpreter.Waited due result.2.interpreter ∧ Uneventful result.1

theorem Passes.of_waited {due : Nat} {outcome : Except Refusal Answer}
    (waited : e.interpreter.Waited due f.interpreter) (told : Uneventful outcome) :
    e.Passes due (outcome, f) :=
  ⟨⟨due, Nat.le_refl _, waited⟩, fun _ => ⟨waited, told⟩⟩

/-- A run that finds no held key only counts its steps; a pending stop ends it after the first. -/
def idle (e : Emulator) (count : Int) : Except Fault (Option StopEvent) × Emulator :=
  if e.interpreter.stopRequested = true ∧ 0 < count then
    (.ok e.debugger.lastEvent,
      (e.afterSteps 1 { e.interpreter with stopRequested := false }).stopped)
  else (.ok none, e.afterSteps count.toNat e.interpreter)

theorem idle_of_pending (pending : e.interpreter.stopRequested = true ∧ 0 < count) :
    e.idle count = (.ok e.debugger.lastEvent,
      (e.afterSteps 1 { e.interpreter with stopRequested := false }).stopped) :=
  if_pos pending

theorem idle_of_quiet (quiet : ¬ (e.interpreter.stopRequested = true ∧ 0 < count)) :
    e.idle count = (.ok none, e.afterSteps count.toNat e.interpreter) :=
  if_neg quiet

theorem runUpTo_of_idles (idles : e.interpreter.Idles count.toNat) :
    e.runUpTo count = e.idle count := by
  by_cases pending : e.interpreter.stopRequested = true ∧ 0 < count
  · obtain ⟨steps, some⟩ := Nat.exists_eq_succ_of_ne_zero (n := count.toNat) (by omega)
    rw [idle_of_pending pending]
    rw [some] at idles
    have way := idles.ran_requested pending.1
    rw [← Nat.succ_eq_add_one, ← some] at way
    exact runUpTo_requested way
  · rw [idle_of_quiet pending]
    cases requested : e.interpreter.stopRequested with
    | false => exact runUpTo_completed (idles.ran requested)
    | true =>
      have none : count.toNat = 0 := by
        have : ¬ 0 < count := fun positive => pending ⟨requested, positive⟩
        omega
      rw [none]
      refine runUpTo_completed ?_
      rw [none]
      exact .completed

theorem passes_runAndFinish {due : Nat} {finish : Emulator → StopEvent × Emulator}
    (idles : e.interpreter.Idles count.toNat)
    (finished : ∀ left : Emulator, left.interpreter.Waited due (finish left).2.interpreter)
    (told : ∀ left : Emulator, (finish left).1.isBreak = false) :
    e.Passes due (conclude .fault .stopped (e.runAndFinish count finish)) := by
  unfold runAndFinish
  rw [runUpTo_of_idles idles]
  by_cases pending : e.interpreter.stopRequested = true ∧ 0 < count
  · rw [idle_of_pending pending]
    have stopped : e.interpreter.Waited 0 { e.interpreter with stopRequested := false } :=
      .of_counted rfl rfl rfl rfl rfl rfl (.inl rfl) fun _ => rfl
    have quiet : e.interpreter.stopRequested ≠ false := by simp [pending.1]
    cases e.debugger.lastEvent with
    | some event => exact ⟨⟨0, Nat.zero_le _, stopped⟩, fun no => absurd no quiet⟩
    | none =>
      have through := stopped.trans
        (finished (e.afterSteps 1 { e.interpreter with stopRequested := false }).stopped)
      rw [Nat.zero_add] at through
      exact ⟨⟨due, Nat.le_refl _, through⟩, fun no => absurd no quiet⟩
  · rw [idle_of_quiet pending]
    exact .of_waited (finished (e.afterSteps count.toNat e.interpreter)) (told _)

theorem passes_runTicks {ticks : Ticks} (idles : e.interpreter.Idles ticks.steps) :
    e.Passes ticks.timerEvents (conclude .fault .stopped (e.runTicks ticks)) := by
  have told (left : Emulator) : (atElapsed ticks left).1.isBreak = false := rfl
  exact passes_runAndFinish idles (fun left => left.interpreter.waited_countDown _) told

/-- Time that elapses is steps and timer events. -/
theorem conclude_run {elapsed : Quantity} {ticks : Ticks} {clock : SystemClock}
    (advanced : e.clock.advance elapsed = .ok (ticks, clock)) :
    conclude RunError.refusal .stopped (e.run elapsed) =
      conclude .fault .stopped ({ e with clock }.runTicks ticks) := by
  simp only [Emulator.run, advanced]
  match { e with clock }.runTicks ticks with
  | (.error fault, left) => rfl
  | (.ok event, left) => rfl

/-- A step alone tells where the program waits, and arms again a breakpoint that would be passed. -/
theorem step_of_idles (idles : e.interpreter.Idles 1) :
    e.step = (.ok (e.afterSteps 1 (disarmed e.interpreter e.interpreter.hooks)).stepEvent,
      e.afterSteps 1 (disarmed e.interpreter e.interpreter.hooks)) := by
  have alone : e.interpreter.unasked.Idles 1 := idles
  have ran := step_ran alone.step
  exact ran

theorem isBreak_stepEvent (e : Emulator) : e.stepEvent.isBreak = false := by
  cases waiting : e.processor.waiting <;> simp [stepEvent, StopEvent.isBreak, waiting]

theorem plainly_eq {run : Interpreter Debugger memorySize →
    Except Fault Bool × Interpreter Debugger memorySize} {ran : Bool}
    {i : Interpreter Debugger memorySize} (went : run e.interpreter = (.ok ran, i)) :
    e.plainly run = (.ok (.reached ran), { e with interpreter := i }) := by
  simp only [plainly, went, conclude]

/-- A change of the keys, or none if there is no such key. -/
theorem passes_keyed (e : Emulator) (name : KeyName) (change : Key → Keypad → Keypad) :
    e.Passes 0 (e.settle .key ((name.key.map fun k => e.onKeypad (change k)).map (.done, ·))) := by
  cases name.key with
  | error error => exact .of_waited (.refl _) trivial
  | ok k => exact .of_waited (.of_counted rfl rfl rfl rfl rfl rfl (.inl rfl) id) trivial

/-- An event that finds no held key. -/
theorem passes_occur {event : Event} (idles : e.interpreter.Idles (e.stepsDue event)) :
    e.Passes (e.timerEventsDue event) (e.occur event) := by
  cases event with
  | step =>
    -- A single step is the one event that takes a pass away.
    rw [occur, perform, step_of_idles idles]
    exact .of_waited (.of_counted rfl rfl rfl rfl rfl rfl (.inr rfl) fun _ => rfl)
      (isBreak_stepEvent _)
  | runSteps limit =>
    have told (left : Emulator) : (atLimit limit left).1.isBreak = false := rfl
    exact passes_runAndFinish idles (fun left => .refl left.interpreter) told
  | tick =>
    have told (left : Emulator) : (atFrame left).1.isBreak = false := rfl
    exact passes_runAndFinish idles (fun left => left.interpreter.waited_countDown 1) told
  | run elapsed =>
    have idles : e.interpreter.Idles (e.ticksOf elapsed).steps := idles
    have passes : e.Passes (e.ticksOf elapsed).timerEvents
        (conclude RunError.refusal .stopped (e.run elapsed)) := by
      cases advanced : e.clock.advance elapsed with
      | error error =>
        simp only [Emulator.run, advanced, ticksOf]
        exact .of_waited (.refl _) trivial
      | ok result =>
        obtain ⟨ticks, clock⟩ := result
        rw [ticksOf_eq advanced] at idles ⊢
        rw [conclude_run advanced]
        have passes := passes_runTicks (e := { e with clock }) idles
        exact ⟨passes.waited, passes.punctual⟩
    exact passes
  | plainStep =>
    rw [occur, plainly_eq idles.step]
    exact .of_waited (.refl _) rfl
  | plainFrame steps =>
    have idles : e.interpreter.Idles steps := idles
    rw [occur, plainly_eq idles.frame]
    exact .of_waited (e.interpreter.waited_countDown 1) rfl
  | timerEvent => exact .of_waited (e.interpreter.waited_countDown 1) trivial
  | press name => exact passes_keyed e name fun k p => p.press k
  | release name => exact passes_keyed e name fun k p => p.release k

/-! ### Other hooks and other keys -/

def refit (e : Emulator) (hooks : Hooks Debugger → Hooks Debugger) (keypad : Keypad → Keypad) :
    Emulator :=
  e.onInterpreter fun i => { i with
    hooks := hooks i.hooks
    machine := { i.machine with keypad := keypad i.machine.keypad } }

/-- The changes of keys that an event does not get in the way of. -/
def Event.Spares (keypad : Keypad → Keypad) : Event → Prop
  | .press name => ∀ k, name.key = .ok k → ∀ p, keypad (p.press k) = (keypad p).press k
  | .release name => ∀ k, name.key = .ok k → ∀ p, keypad (p.release k) = (keypad p).release k
  | _ => True

section

variable {hooks : Hooks Debugger → Hooks Debugger} {keypad : Keypad → Keypad}

theorem idle_refit (e : Emulator) (count : Int) :
    (e.refit hooks keypad).idle count =
      ((e.idle count).1, (e.idle count).2.refit hooks keypad) := by
  by_cases pending : e.interpreter.stopRequested = true ∧ 0 < count
  · have same : (e.refit hooks keypad).interpreter.stopRequested = true ∧ 0 < count := pending
    rw [idle_of_pending pending, idle_of_pending same]
    rfl
  · have same : ¬ ((e.refit hooks keypad).interpreter.stopRequested = true ∧ 0 < count) := pending
    rw [idle_of_quiet pending, idle_of_quiet same]
    rfl

theorem runAndFinish_refit {finish : Emulator → StopEvent × Emulator}
    (idles : e.interpreter.Idles count.toNat)
    (refitted : (e.refit hooks keypad).interpreter.Idles count.toNat)
    (finished : ∀ left : Emulator,
      finish (left.refit hooks keypad) = ((finish left).1, (finish left).2.refit hooks keypad)) :
    (e.refit hooks keypad).runAndFinish count finish =
      ((e.runAndFinish count finish).1, (e.runAndFinish count finish).2.refit hooks keypad) := by
  unfold runAndFinish
  rw [runUpTo_of_idles idles, runUpTo_of_idles refitted, idle_refit]
  match e.idle count with
  | (.error fault, left) => rfl
  | (.ok (some event), left) => rfl
  | (.ok none, left) => simp only [finished]

theorem applyTimerEvents_refit (e : Emulator) (n : Nat) :
    (e.refit hooks keypad).applyTimerEvents n = (e.applyTimerEvents n).refit hooks keypad := by
  simp only [applyTimerEvents, onInterpreter, Interpreter.repeat_countDown_eq]
  rfl

theorem runTicks_refit {ticks : Ticks} (idles : e.interpreter.Idles ticks.steps)
    (refitted : (e.refit hooks keypad).interpreter.Idles ticks.steps) :
    (e.refit hooks keypad).runTicks ticks =
      ((e.runTicks ticks).1, (e.runTicks ticks).2.refit hooks keypad) := by
  rw [runTicks_eq, runTicks_eq]
  refine runAndFinish_refit idles refitted fun left => ?_
  simp only [atElapsed, applyTimerEvents_refit]
  rfl

theorem conclude_refit {ε α : Type} {refuse : ε → Refusal} {answer : α → Answer}
    {result other : Except ε α × Emulator}
    (same : other = (result.1, result.2.refit hooks keypad)) :
    conclude refuse answer other =
      ((conclude refuse answer result).1, (conclude refuse answer result).2.refit hooks keypad) := by
  rw [same]
  match result with
  | (.error error, left) => rfl
  | (.ok found, left) => rfl

theorem onKeypad_refit {change : Keypad → Keypad}
    (commutes : ∀ p, keypad (change p) = change (keypad p)) :
    (e.refit hooks keypad).onKeypad change = (e.onKeypad change).refit hooks keypad := by
  simp only [refit, onKeypad, onMachine, onInterpreter, commutes]

theorem keyed_refit (e : Emulator) (name : KeyName) {change : Key → Keypad → Keypad}
    (commutes : ∀ k, name.key = .ok k → ∀ p, keypad (change k p) = change k (keypad p)) :
    (e.refit hooks keypad).settle .key
        ((name.key.map fun k => (e.refit hooks keypad).onKeypad (change k)).map (.done, ·)) =
      ((e.settle .key ((name.key.map fun k => e.onKeypad (change k)).map (.done, ·))).1,
        (e.settle .key
          ((name.key.map fun k => e.onKeypad (change k)).map (.done, ·))).2.refit hooks keypad) := by
  cases found : name.key with
  | error error => rfl
  | ok k =>
    simp only [Except.map, onKeypad_refit (commutes k found)]
    rfl

/-- An event that finds no held key, before or after a change of hooks and keys, does the same. -/
theorem occur_refit {event : Event} (idles : e.interpreter.Idles (e.stepsDue event))
    (refitted : (e.refit hooks keypad).interpreter.Idles (e.stepsDue event))
    (spares : event.Spares keypad) :
    (e.refit hooks keypad).occur event =
      ((e.occur event).1, (e.occur event).2.refit hooks keypad) := by
  cases event with
  | step =>
    refine conclude_refit ?_
    rw [step_of_idles idles, step_of_idles refitted]
    rfl
  | runSteps limit =>
    refine conclude_refit ?_
    rw [runSteps_eq, runSteps_eq]
    exact runAndFinish_refit idles refitted fun left => rfl
  | tick =>
    refine conclude_refit ?_
    rw [tick_eq, tick_eq]
    exact runAndFinish_refit idles refitted fun left => rfl
  | run elapsed =>
    -- What is due is up to the clock, and neither hooks nor keys are part of that.
    have idles : e.interpreter.Idles (e.ticksOf elapsed).steps := idles
    have refitted : (e.refit hooks keypad).interpreter.Idles (e.ticksOf elapsed).steps := refitted
    cases advanced : e.clock.advance elapsed with
    | error error =>
      have same : (e.refit hooks keypad).clock.advance elapsed = .error error := advanced
      simp only [occur, perform, Emulator.run, advanced, same]
      rfl
    | ok result =>
      obtain ⟨ticks, clock⟩ := result
      have same : (e.refit hooks keypad).clock.advance elapsed = .ok (ticks, clock) := advanced
      rw [ticksOf_eq advanced] at idles refitted
      rw [occur, occur, perform, perform, conclude_run advanced, conclude_run same]
      exact conclude_refit (runTicks_refit (e := { e with clock }) idles refitted)
  | plainStep =>
    rw [occur, occur, plainly_eq idles.step, plainly_eq refitted.step]
  | plainFrame steps =>
    have idles : e.interpreter.Idles steps := idles
    have refitted : (e.refit hooks keypad).interpreter.Idles steps := refitted
    rw [occur, occur, plainly_eq idles.frame, plainly_eq refitted.frame]
    rfl
  | timerEvent => rfl
  | press name => exact keyed_refit e name spares
  | release name => exact keyed_refit e name spares

end

end Emulator

end Chip8
