import Chip8.Proofs.Execution
import Chip8.Proofs.Request

/-! Steps and runs while a program waits for a key.

A step then looks at the keypad and at nothing else. It leaves everything as it is if no key is held,
and hands over the lowest held key otherwise, which ends the wait. A run whose steps find no held
key therefore does nothing but count its steps; only a stop that was pending may cut it short.
-/

set_option autoImplicit false

namespace Chip8

variable {σ : Type} {size : Nat}

/-! ### Held keys -/

namespace Keypad

variable {p : Keypad} {k : Key}

theorem first?_eq_none (released : p.keys = []) : p.first? = none := by
  rw [first?, released, List.head?_nil]

theorem exists_first? (held : p.keys ≠ []) : ∃ k, p.first? = some k := by
  obtain ⟨k, keys, all⟩ := List.exists_cons_of_ne_nil held
  exact ⟨k, by rw [first?, all, List.head?_cons]⟩

theorem mem_of_first? (first : p.first? = some k) : k ∈ p.keys :=
  List.mem_of_head? first

theorem le_of_first? (first : p.first? = some k) {other : Key} (held : other ∈ p.keys) :
    k ≤ other := by
  have sorted : p.keys.Pairwise (· < ·) :=
    List.Pairwise.filter _ (by decide : (List.finRange 16).Pairwise (· < ·))
  obtain ⟨keys, all⟩ := List.head?_eq_some_iff.1 first
  rw [all, List.pairwise_cons] at sorted
  rw [all, List.mem_cons] at held
  rcases held with rfl | later
  · exact Nat.le_refl _
  · exact Nat.le_of_lt (sorted.1 other later)

def mark (p : Keypad) (k : Key) : Bool → Keypad
  | true => p.press k
  | false => p.release k

/-- What is pressed or released does not matter to other keys. -/
theorem mark_comm (p : Keypad) {j k : Key} (other : j ≠ k) (a b : Bool) :
    (p.mark j a).mark k b = (p.mark k b).mark j a := by
  have distinct : j.val ≠ k.val := fun same => other (Fin.ext same)
  cases a <;> cases b <;> simp only [mark, press, release, Vector.set_comm _ _ distinct]

theorem release_press (p : Keypad) (k : Key) : (p.press k).release k = p.release k := by
  simp only [press, release, Vector.set_set]

theorem release_of_up (up : k ∉ p.keys) : p.release k = p := by
  have released : p.held[k.val] = false := by
    rw [mem_keys] at up
    exact Bool.eq_false_iff.2 up
  rw [release, ← released, Vector.set_getElem_self]

end Keypad

namespace Interpreter

variable {i j : Interpreter σ size} {steps count : Nat} {halt : Halt} {x : Register} {pc : Int}

/-- The program waits for a key, which will go to a register; it will then go on at an address. -/
structure Awaits (i : Interpreter σ size) (x : Register) (pc : Int) : Prop where
  waiting : i.machine.processor.waiting = true
  register : i.machine.processor.keyRegister = x
  resumes : i.machine.processor.pc = pc

theorem Executes.awaits {word : Word} (next : i.Executes ⟨word, .awaitKey x⟩) :
    i.step.1 = .ok true ∧ i.step.2.Awaits x (i.machine.processor.pc + 2) := by
  obtain ⟨ran, left⟩ := next.performs.done rfl
  exact ⟨ran, congrArg (·.processor.waiting) left, congrArg (·.processor.keyRegister) left,
    congrArg (·.processor.pc) left⟩

/-! ### Steps that find no key -/

def Idles (i : Interpreter σ size) (steps : Nat) : Prop :=
  0 < steps → i.machine.processor.waiting = true ∧ i.machine.keypad.keys = []

theorem Idles.step (idles : i.Idles (steps + 1)) : i.step = (.ok true, i) := by
  obtain ⟨waiting, released⟩ := idles (Nat.succ_pos steps)
  have same : i.machine.poll = i.machine := by
    rw [Machine.poll, Keypad.first?_eq_none released]
  rw [(Stepped.polled waiting).step_eq, same]

theorem Idles.pred (idles : i.Idles (steps + 1)) : i.Idles steps :=
  fun _ => idles (Nat.succ_pos steps)

theorem Idles.ran (idles : i.Idles steps) (quiet : i.stopRequested = false) :
    Ran i steps .completed steps i := by
  induction steps with
  | zero => exact .completed
  | succ steps ih => exact .more idles.step quiet (ih idles.pred)

/-- A stop that was pending comes after the first step. -/
theorem Idles.ran_requested (idles : i.Idles (steps + 1)) (pending : i.stopRequested = true) :
    Ran i (steps + 1) .requested 1 { i with stopRequested := false } :=
  .requested idles.step pending

theorem Idles.frame (idles : i.Idles steps) : i.frame steps = (.ok true, i.countDown) := by
  induction steps with
  | zero => rfl
  | succ steps ih =>
    rw [Interpreter.frame, idles.step]
    exact ih idles.pred

/-- However such a run ends, it leaves all but a pending stop as it was. -/
theorem Idles.keeps (idles : i.Idles steps) (way : Ran i steps halt count j) :
    j = { i with stopRequested := j.stopRequested } := by
  induction way with
  | completed => rfl
  | failed step | vetoed step =>
    rw [idles.step] at step
    cases step
  | requested step requested =>
    rw [idles.step] at step
    cases step
    rfl
  | more step quiet rest ih =>
    rw [idles.step] at step
    cases step
    exact ih idles.pred

/-! ### The step that finds a key -/

def answered (i : Interpreter σ size) (x : Register) (k : Key) : Interpreter σ size :=
  i.onProcessor fun p => { p.set x (UInt8.ofNat k.val) with waiting := false }

/-- The next step hands over the lowest held key and does nothing else, also where it is the first of
a run or of a frame, or asks no hook; then the program goes on. -/
structure Answers (i : Interpreter σ size) (x : Register) (pc : Int) (k : Key) : Prop where
  held : k ∈ i.machine.keypad.keys
  lowest : ∀ other ∈ i.machine.keypad.keys, k ≤ other
  step : i.step = (.ok true, i.answered x k)
  unasked : i.unasked.step = (.ok true, (i.answered x k).unasked)
  run : ∀ steps ran, i.run (steps + 1) ran =
    if i.stopRequested then (.requested, ran + 1, (i.answered x k).takeStopRequest.2)
    else (i.answered x k).run steps (ran + 1)
  frame : ∀ steps, i.frame (steps + 1) = (i.answered x k).frame steps
  executed : i.executed? = none
  active : (i.answered x k).machine.processor.waiting = false
  resumes : (i.answered x k).machine.processor.pc = pc

theorem Awaits.step (awaits : i.Awaits x pc) {k : Key} (first : i.machine.keypad.first? = some k) :
    i.step = (.ok true, i.answered x k) := by
  rw [(Stepped.polled awaits.waiting).step_eq, Machine.poll, first, awaits.register]
  rfl

theorem Awaits.answers (awaits : i.Awaits x pc) (held : i.machine.keypad.keys ≠ []) :
    ∃ k, i.Answers x pc k := by
  obtain ⟨k, first⟩ := Keypad.exists_first? held
  have step := awaits.step first
  have alone : i.unasked.Awaits x pc := ⟨awaits.waiting, awaits.register, awaits.resumes⟩
  refine ⟨k, {
    held := Keypad.mem_of_first? first
    lowest := fun other => Keypad.le_of_first? first
    step := step
    unasked := alone.step first
    run := fun steps ran => ?_
    frame := fun steps => by simp only [Interpreter.frame, step]
    executed := executed?_of_waiting awaits.waiting
    active := rfl
    resumes := awaits.resumes }⟩
  have stops : (i.answered x k).stopRequested = i.stopRequested := rfl
  cases requested : i.stopRequested with
  | true => simp only [Interpreter.run, step, takeStopRequest, stops, requested, if_true]
  | false =>
    have same : { i.answered x k with stopRequested := false } = i.answered x k := by
      rw [← requested, ← stops]
    simp [Interpreter.run, step, takeStopRequest, stops, requested, same]

end Interpreter

end Chip8
