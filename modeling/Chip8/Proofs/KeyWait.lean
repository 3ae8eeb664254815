import Chip8.Proofs.KeyEvents

/-! The wait for a key, from the instruction that starts it to the key that ends it.

As long as no look at the keypad finds a held key, nothing of the machine changes but the timers,
whichever loops take the steps, whatever time passes and whichever keys go up and down in between.
No hook is called and no breakpoint stops a run. A key that is pressed and released between two looks
leaves no trace.
-/

set_option autoImplicit false

namespace Chip8

open Interpreter (Ran)

namespace Emulator

variable {e : Emulator}

/-! ### Runs of events -/

theorem occurAll_append (e : Emulator) (first rest : List Event) :
    e.occurAll (first ++ rest) = ((e.occurAll first).1 ++ ((e.occurAll first).2.occurAll rest).1,
      ((e.occurAll first).2.occurAll rest).2) := by
  induction first generalizing e with
  | nil => rfl
  | cons event first ih => simp only [List.cons_append, occurAll, ih]

theorem idles_of_awaits {x : Register} {pc : Int} {steps : Nat} (awaits : e.interpreter.Awaits x pc)
    (released : 0 < steps → e.machine.keypad.keys = []) : e.interpreter.Idles steps :=
  fun some => ⟨awaits.waiting, released some⟩

structure PassesAll (e : Emulator) (due : Nat)
    (results : List (Except Refusal Answer) × Emulator) : Prop where
  waited : ∃ timerEvents ≤ due, e.interpreter.Waited timerEvents results.2.interpreter
  punctual : e.interpreter.stopRequested = false →
    e.interpreter.Waited due results.2.interpreter ∧ ∀ outcome ∈ results.1, Uneventful outcome

theorem Passes.cons {due rest : Nat} {result : Except Refusal Answer × Emulator}
    {results : List (Except Refusal Answer) × Emulator} (first : e.Passes due result)
    (later : result.2.PassesAll rest results) :
    e.PassesAll (due + rest) (result.1 :: results.1, results.2) where
  waited := by
    obtain ⟨m, least, earlier⟩ := first.waited
    obtain ⟨n, less, later⟩ := later.waited
    exact ⟨m + n, Nat.add_le_add least less, earlier.trans later⟩
  punctual quiet := by
    obtain ⟨earlier, told⟩ := first.punctual quiet
    obtain ⟨later, tell⟩ := later.punctual (earlier.stops quiet)
    refine ⟨earlier.trans later, fun outcome member => ?_⟩
    rcases List.mem_cons.1 member with rfl | member
    · exact told
    · exact tell outcome member

theorem passesAll_occurAll {x : Register} {pc : Int} {events : List Event}
    (awaits : e.interpreter.Awaits x pc) (unheard : e.Unheard events) :
    e.PassesAll (e.allTimerEventsDue events) (e.occurAll events) := by
  induction events generalizing e with
  | nil => exact ⟨⟨0, Nat.le_refl _, .refl _⟩, fun _ => ⟨.refl _, nofun⟩⟩
  | cons event events ih =>
    obtain ⟨released, unheard⟩ := unheard
    have first := passes_occur (idles_of_awaits awaits released)
    obtain ⟨m, -, waited⟩ := first.waited
    exact first.cons (ih (waited.awaits awaits) unheard)

/-- No event of a run finds a held key, before or after a change of keys, and none gets in the way of
the change. -/
def Indifferent (keypad : Keypad → Keypad) (e : Emulator) : List Event → Prop
  | [] => True
  | event :: events =>
    e.interpreter.Idles (e.stepsDue event) ∧
      (e.onKeypad keypad).interpreter.Idles (e.stepsDue event) ∧ event.Spares keypad ∧
        Indifferent keypad (e.occur event).2 events

theorem occurAll_refit {hooks : Hooks Debugger → Hooks Debugger} {keypad : Keypad → Keypad}
    {events : List Event} (indifferent : Indifferent keypad e events) :
    (e.refit hooks keypad).occurAll events =
      ((e.occurAll events).1, (e.occurAll events).2.refit hooks keypad) := by
  induction events generalizing e with
  | nil => rfl
  | cons event events ih =>
    obtain ⟨idles, changed, spares, later⟩ := indifferent
    have first : (e.refit hooks keypad).occur event =
        ((e.occur event).1, (e.occur event).2.refit hooks keypad) :=
      occur_refit idles changed spares
    simp only [occurAll, first, ih later]

theorem indifferent_id {x : Register} {pc : Int} {events : List Event}
    (awaits : e.interpreter.Awaits x pc) (unheard : e.Unheard events) : Indifferent id e events := by
  induction events generalizing e with
  | nil => trivial
  | cons event events ih =>
    obtain ⟨released, unheard⟩ := unheard
    have idles := idles_of_awaits awaits released
    obtain ⟨m, -, waited⟩ := (passes_occur idles).waited
    refine ⟨idles, idles, ?_, ih (waited.awaits awaits) unheard⟩
    cases event <;> simp [Event.Spares]

/-! ### Keys between two looks -/

def Event.key? : Event → Option Key
  | .press name | .release name => name.key.toOption
  | _ => none

/-- No event takes a step or is about a key. -/
def Unpolled (k : Key) (e : Emulator) : List Event → Prop
  | [] => True
  | event :: events =>
    e.stepsDue event = 0 ∧ event.key? ≠ some k ∧ Unpolled k (e.occur event).2 events

theorem ne_of_key {name : KeyName} {j k : Key} (found : name.key = .ok j)
    (other : name.key.toOption ≠ some k) : j ≠ k := by
  rintro rfl
  exact other (by rw [found, Except.toOption])

theorem spares_mark {event : Event} {k : Key} (other : event.key? ≠ some k) (down : Bool) :
    event.Spares (·.mark k down) := by
  cases event with
  | press name => exact fun j found p => p.mark_comm (ne_of_key found other) true down
  | release name => exact fun j found p => p.mark_comm (ne_of_key found other) false down
  | _ => trivial

theorem Unpolled.indifferent {k : Key} {events : List Event} (unpolled : Unpolled k e events)
    (down : Bool) : Indifferent (·.mark k down) e events := by
  induction events generalizing e with
  | nil => trivial
  | cons event events ih =>
    obtain ⟨none, other, later⟩ := unpolled
    refine ⟨?_, ?_, spares_mark other down, ih later⟩
    · intro some
      omega
    · intro some
      omega

theorem refit_eq_self {keypad : Keypad → Keypad}
    (same : keypad e.machine.keypad = e.machine.keypad) : e.refit id keypad = e := by
  have same : keypad e.interpreter.machine.keypad = e.interpreter.machine.keypad := same
  simp only [refit, onInterpreter, same, id]

/-- Pressing and then releasing a key is releasing it. -/
theorem release_refit (e : Emulator) (k : Key) :
    (e.refit id (·.mark k true)).onKeypad (·.release k) = e.refit id (·.mark k false) := by
  have same (p : Keypad) : (p.mark k true).release k = p.mark k false := p.release_press k
  simp only [refit, onKeypad, onMachine, onInterpreter, same]

/-- A key that was up, is pressed, and is released before a step looks at the keypad leaves no
trace. -/
theorem occurAll_press_release {k : Key} {press release : KeyName} {between : List Event}
    (up : k ∉ e.machine.keypad.keys) (pressed : press.key = .ok k) (released : release.key = .ok k)
    (unpolled : Unpolled k e between) :
    e.occurAll (.press press :: (between ++ [.release release])) =
      (.ok .done :: ((e.occurAll between).1 ++ [.ok .done]), (e.occurAll between).2) := by
  have down : e.occur (.press press) = (.ok .done, e.refit id (·.mark k true)) := by
    rw [occur, perform, pressKey, pressed]
    rfl
  have run : (e.refit id (·.mark k true)).occurAll between =
      ((e.occurAll between).1, (e.occurAll between).2.refit id (·.mark k true)) :=
    occurAll_refit (unpolled.indifferent true)
  -- The key was up, so all went as it would have with the key released before.
  have same : e.refit id (·.mark k false) = e := refit_eq_self (Keypad.release_of_up up)
  have still : (e.refit id (·.mark k false)).occurAll between =
      ((e.occurAll between).1, (e.occurAll between).2.refit id (·.mark k false)) :=
    occurAll_refit (unpolled.indifferent false)
  rw [same] at still
  have left : (e.occurAll between).2.refit id (·.mark k false) = (e.occurAll between).2 :=
    (congrArg Prod.snd still).symm
  have up : ((e.occurAll between).2.refit id (·.mark k true)).occur (.release release) =
      (.ok .done, (e.occurAll between).2) := by
    rw [occur, perform, releaseKey, released, Except.map, release_refit, left]
    rfl
  simp only [occurAll, down, occurAll_append, run, up]

/-- While a program waits for a key and no step finds one held, only the timers change, and no hook is
asked or told of anything. The first step that finds a key held gives the lowest one to the program,
which then goes on behind the instruction that waited. A key that no step saw leaves no trace. -/
theorem waits_for_key (before : Interpreter Debugger memorySize) (word : Word) (x : Register)
    (begins : before.Executes ⟨word, .awaitKey x⟩) :
    (before.step.1 = .ok true ∧ before.step.2.Awaits x (before.machine.processor.pc + 2)) ∧
      (∀ (steps count timerEvents : Nat) (halt : Halt) (i : Interpreter Debugger memorySize),
        before.step.2.machine.keypad.keys = [] → Ran before.step.2 steps halt count i →
          before.step.2.Waited timerEvents (timerEvents.repeat Interpreter.countDown i)) ∧
      ∀ (e : Emulator) (events : List Event),
        e.interpreter.Awaits x (before.machine.processor.pc + 2) → e.Unheard events →
          e.PassesAll (e.allTimerEventsDue events) (e.occurAll events) ∧
          (∀ hooks : Hooks Debugger, (e.refit (fun _ => hooks) id).occurAll events =
            ((e.occurAll events).1, (e.occurAll events).2.refit (fun _ => hooks) id)) ∧
          ((e.occurAll events).2.machine.keypad.keys ≠ [] →
            ∃ k, (e.occurAll events).2.interpreter.Answers x (before.machine.processor.pc + 2) k) ∧
          ∀ (k : Key) (press release : KeyName) (between : List Event),
            k ∉ (e.occurAll events).2.machine.keypad.keys → press.key = .ok k →
              release.key = .ok k → Unpolled k (e.occurAll events).2 between →
                (e.occurAll events).2.occurAll (.press press :: (between ++ [.release release])) =
                  (.ok .done :: (((e.occurAll events).2.occurAll between).1 ++ [.ok .done]),
                    ((e.occurAll events).2.occurAll between).2) := by
  obtain ⟨ran, awaits⟩ := begins.awaits
  refine ⟨⟨ran, awaits⟩, fun steps count timerEvents halt i released way => ?_,
    fun e events awaits unheard => ?_⟩
  · have idles : before.step.2.Idles steps := fun _ => ⟨awaits.waiting, released⟩
    have kept : before.step.2.Waited 0 i := by
      have same := idles.keeps way
      have quiet := way.quiet
      rw [same]
      rw [same] at quiet
      exact .of_counted rfl rfl rfl rfl rfl rfl (.inl rfl) quiet
    have counted := kept.trans (i.waited_countDown timerEvents)
    rwa [Nat.zero_add] at counted
  · have passes := passesAll_occurAll awaits unheard
    obtain ⟨m, -, waited⟩ := passes.waited
    refine ⟨passes, fun hooks => occurAll_refit (indifferent_id awaits unheard),
      (waited.awaits awaits).answers, fun k press release between up pressed released unpolled => ?_⟩
    exact occurAll_press_release up pressed released unpolled

def keyProgram : List UInt8 :=
  [0xF3, 0x0A, 0x12, 0x00]

def beforeWait : Emulator :=
  (usual.perform (.load keyProgram "key")).2.onInterpreter (·.onProcessor (·.putDelay 9))

def duringWait : Emulator :=
  (beforeWait.perform (.runSteps 3)).2

def idleEvents : List Event :=
  [.tick, .plainStep, .step, .timerEvent, .press (.number 9), .press (.number 5)]

theorem waits_for_key_keyProgram :
    beforeWait.interpreter.Executes ⟨0xF30A, .awaitKey 3⟩ ∧
      duringWait.interpreter.Awaits 3 0x202 ∧ duringWait.Unheard idleEvents ∧
      duringWait.interpreter.Waited 2 (duringWait.occurAll idleEvents).2.interpreter ∧
      (∃ k, (duringWait.occurAll idleEvents).2.interpreter.Answers 3 0x202 k) ∧
      (duringWait.occurAll idleEvents).2.occurAll
          [.press (.number 1), .timerEvent, .release (.number 1)] =
        ([.ok .done, .ok .done, .ok .done],
          ((duringWait.occurAll idleEvents).2.occurAll [.timerEvent]).2) := by
  have loaded := (reachable_usual.performed (.load keyProgram "key")).ready
  have coherent : beforeWait.interpreter.Coherent := loaded.coherent.of_bytes_eq rfl rfl
  have found : beforeWait.machine.decoded 0x200 = .ok ⟨0xF30A, .awaitKey 3⟩ :=
    eq_ok_of_toOption (by decide +kernel)
  have begins : beforeWait.interpreter.Executes ⟨0xF30A, .awaitKey 3⟩ :=
    coherent.executes (by decide +kernel) found (by decide +kernel)
  have waits : duringWait.interpreter.machine.processor.waiting = true ∧
      duringWait.interpreter.machine.processor.keyRegister = 3 ∧
      duringWait.interpreter.machine.processor.pc = 0x202 ∧
      duringWait.interpreter.stopRequested = false := by
    decide +kernel
  obtain ⟨waiting, register, resumes, quiet⟩ := waits
  have awaits : duringWait.interpreter.Awaits 3 0x202 := ⟨waiting, register, resumes⟩
  have events : duringWait.Unheard idleEvents ∧ duringWait.allTimerEventsDue idleEvents = 2 ∧
      (duringWait.occurAll idleEvents).2.machine.keypad.keys = [5, 9] := by
    decide +kernel
  obtain ⟨unheard, due, keys⟩ := events
  have held : (duringWait.occurAll idleEvents).2.machine.keypad.keys ≠ [] := by simp [keys]
  have up : 1 ∉ (duringWait.occurAll idleEvents).2.machine.keypad.keys := by simp [keys]
  obtain ⟨-, -, wait⟩ := waits_for_key beforeWait.interpreter 0xF30A 3 begins
  obtain ⟨passes, -, answers, traceless⟩ := wait duringWait idleEvents awaits unheard
  obtain ⟨waited, -⟩ := passes.punctual quiet
  rw [due] at waited
  exact ⟨begins, awaits, unheard, waited, answers held,
    traceless 1 (.number 1) (.number 1) [.timerEvent] up rfl rfl ⟨rfl, nofun, trivial⟩⟩

end Emulator

end Chip8
