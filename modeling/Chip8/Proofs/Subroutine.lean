import Chip8.Proofs.Execution
import Chip8.Proofs.WellFormed

/-! Subroutines.

A call puts the address behind it on the stack. Until that address is taken off again nothing below
it changes, so the return that takes it goes behind the call and leaves the stack as the call found
it. A return fails exactly when as many returns as calls have been executed.
-/

set_option autoImplicit false

namespace Chip8

variable {σ : Type} {size : Nat}

namespace Interpreter

variable {i j k : Interpreter σ size} {result : Except Fault Bool} {log : List Instruction}

def stack (i : Interpreter σ size) : List Int :=
  i.machine.processor.stack

/-! ### What a step does to the stack -/

/-- A call puts the address behind it on the stack. -/
theorem Executes.call {word : Word} {target : Address} (next : i.Executes ⟨word, .call target⟩) :
    i.step.2.stack = (i.machine.processor.pc + 2) :: i.stack := by
  obtain ⟨-, left⟩ := next.performs.done rfl
  exact congrArg (·.processor.stack) left

/-- A return goes to the top of the stack and takes it off. -/
theorem Executes.ret {word : Word} {a : Int} {below : List Int} (next : i.Executes ⟨word, .ret⟩)
    (top : i.stack = a :: below) :
    i.step.1 = .ok true ∧ i.step.2.machine.processor.pc = a ∧ i.step.2.stack = below := by
  have done : i.machine.past.execute .ret =
      i.machine.past.onProcessor ({ · with pc := a, stack := below }) := by
    have top : i.machine.past.processor.stack = a :: below := top
    simp only [Machine.execute, Machine.ret, top]
  obtain ⟨ran, left⟩ := next.performs.done done
  exact ⟨ran, congrArg (·.processor.pc) left, congrArg (·.processor.stack) left⟩

/-- The next step fails because a return has nowhere to go. -/
def Underflows (i : Interpreter σ size) : Prop :=
  ∃ fault, i.step.1 = .error fault ∧ fault.cause = .stackUnderflow

theorem Executes.underflows_iff {word : Word} (next : i.Executes ⟨word, .ret⟩) :
    i.Underflows ↔ i.stack = [] := by
  constructor
  · rintro ⟨fault, failed, -⟩
    cases top : i.stack with
    | nil => rfl
    | cons a below =>
      rw [(next.ret top).1] at failed
      cases failed
  · intro empty
    have failed : i.machine.past.execute .ret = .error .stackUnderflow :=
      Machine.ret_eq_error_iff.2 ⟨empty, rfl⟩
    exact ⟨_, next.performs.failed failed, rfl⟩

/-- A step executes at most one instruction, and nothing else touches the stack. -/
theorem flow_step (step : i.step = (result, j)) :
    (i.executed? = none ∧ j.stack = i.stack) ∨
      ∃ instruction, i.executed? = some instruction ∧
        instruction.Flow { i.machine.processor with pc := i.machine.processor.pc + 2 }
          j.machine.processor := by
  cases stepped step with
  | polled waiting =>
    refine .inl ⟨executed?_of_waiting waiting, ?_⟩
    simp only [stack, Machine.poll]
    cases i.machine.keypad.first? <;> rfl
  | unfetched active fetch =>
    exact .inl ⟨executed?_of_failed step, by rw [stack, processor_fetch fetch, stack]⟩
  | vetoed active fetch ask =>
    refine .inl ⟨executed?_of_vetoed step, ?_⟩
    rw [stack, ask_keeps ask, processor_fetch fetch, stack]
  | failed active fetch ask failed =>
    exact .inl ⟨executed?_of_failed step, by rw [stack, processor_passed fetch ask, stack]⟩
  | executed active fetch ask done =>
    refine .inr ⟨_, executed?_of_executed active fetch step, ?_⟩
    have flow := Machine.flow done
    rw [processor_passed fetch ask] at flow
    rw [machine_noteStores]
    exact flow

/-- The lower part of the stack stays as long as the stack does not get shorter than it. -/
theorem suffix_step (step : i.step = (result, j)) {base : List Int} (below : base <:+ i.stack)
    (deep : base.length ≤ j.stack.length) : base <:+ j.stack := by
  rcases flow_step step with ⟨-, same⟩ | ⟨instruction, -, flow⟩
  · rw [same]
    exact below
  · cases flow with
    | onward _ _ _ _ same | skipped _ _ same | jumped _ _ _ same =>
      rw [stack, same]
      exact below
    | called _ _ _ pushed =>
      rw [stack, pushed]
      exact below.trans (List.suffix_cons _ _)
    | returned _ popped =>
      have shorter : j.stack <:+ i.stack := ⟨[j.machine.processor.pc], popped.symm⟩
      exact List.suffix_of_suffix_length_le below shorter deep

theorem depth_step (step : i.step = (result, j)) :
    j.stack.length + returns i.executed?.toList = i.stack.length + Chip8.calls i.executed?.toList := by
  rcases flow_step step with ⟨none, same⟩ | ⟨instruction, found, flow⟩
  · rw [none, same]
    rfl
  · rw [found]
    exact flow.depth

/-! ### Runs -/

/-- A run of steps that do not fail, on which the stack is never less deep than some number. Between
steps a host may do what leaves the stack alone. -/
inductive Within (depth : Nat) : Interpreter σ size → Interpreter σ size → Prop where
  | here {i : Interpreter σ size} : depth ≤ i.stack.length → Within depth i i
  | step {i j k : Interpreter σ size} {ran : Bool} : Within depth i j → j.step = (.ok ran, k) →
      depth ≤ k.stack.length → Within depth i k
  | host {i j k : Interpreter σ size} : Within depth i j → k.stack = j.stack → Within depth i k

theorem Within.suffix {depth : Nat} (run : Within depth i j) {base : List Int}
    (below : base <:+ i.stack) (within : base.length ≤ depth) : base <:+ j.stack := by
  induction run with
  | here deep => exact below
  | step earlier step deep ih => exact suffix_step step ih (Nat.le_trans within deep)
  | host earlier same ih =>
    rw [same]
    exact ih

/-- Any run, with the instructions that its steps executed to their ends. A step may fail. -/
inductive Trail : Interpreter σ size → List Instruction → Interpreter σ size → Prop where
  | here {i : Interpreter σ size} : Trail i [] i
  | step {i j k : Interpreter σ size} {log : List Instruction} {result : Except Fault Bool} :
      Trail i log j → j.step = (result, k) → Trail i (log ++ j.executed?.toList) k
  | host {i j k : Interpreter σ size} {log : List Instruction} : Trail i log j →
      k.stack = j.stack → Trail i log k

theorem Trail.depth (trail : Trail i log j) :
    j.stack.length + returns log = i.stack.length + Chip8.calls log := by
  induction trail with
  | here => rfl
  | step earlier step ih =>
    have last := depth_step step
    simp only [returns, Chip8.calls, List.countP_append] at *
    omega
  | host earlier same ih =>
    rw [same]
    exact ih

end Interpreter

open Interpreter (Within Trail)

/-- The return that takes off what a call put on the stack goes behind the call and leaves the stack
that the call found; a return fails exactly when all calls since a reset have been returned from. -/
theorem subroutines_nest :
    (∀ (i k : Interpreter σ size) (target : Address) (here there : Word),
      i.Executes ⟨here, .call target⟩ → Within (i.stack.length + 1) i.step.2 k →
        k.Executes ⟨there, .ret⟩ → k.stack.length = i.stack.length + 1 →
          k.step.1 = .ok true ∧ k.step.2.machine.processor.pc = i.machine.processor.pc + 2 ∧
            k.step.2.stack = i.stack) ∧
      (∀ (i k : Interpreter σ size) (log : List Instruction) (word : Word), Trail i.reset log k →
        k.Executes ⟨word, .ret⟩ → (k.Underflows ↔ returns log = calls log)) ∧
      ∀ (e : Emulator) (log : List Instruction) (k : Interpreter Debugger memorySize) (word : Word),
        e.History log → k.machine = e.machine → k.Executes ⟨word, .ret⟩ →
          (k.Underflows ↔ returns log = calls log) := by
  refine ⟨fun i k target here there call run ret depth => ?_, fun i k log word trail ret => ?_,
    fun e log k word history same ret => ?_⟩
  -- A stack that is never less deep keeps as its end what the call left.
  · have kept : ((i.machine.processor.pc + 2) :: i.stack) <:+ k.stack := by
      refine run.suffix ⟨[], ?_⟩ (Nat.le_refl _)
      rw [call.call, List.nil_append]
    have top := kept.eq_of_length (by rw [List.length_cons, depth])
    exact ret.ret top.symm
  · have depth := trail.depth
    have empty : i.reset.stack.length = 0 := rfl
    rw [ret.underflows_iff, ← List.length_eq_zero_iff]
    omega
  · have depth := history.traced.depth
    have empty : Processor.powerOn.stack.length = 0 := rfl
    have stack : k.stack = e.processor.stack := by
      rw [Interpreter.stack, same]
      rfl
    rw [ret.underflows_iff, ← List.length_eq_zero_iff, stack]
    omega

def callTwice : Interpreter Unit 10 where
  machine := {
    processor := { pc := 0, stack := [7] }
    memory := ⟨#v[0x20, 0x04, 0, 0, 0x20, 0x08, 0x00, 0xEE, 0x00, 0xEE], none⟩
    screen := .blank
    keypad := .released
    random := ⟨.replicate 624 0, 0⟩ }
  cache := none
  hooks := {}
  observer := ()
  stopRequested := false

def innerReturn : Interpreter Unit 10 :=
  callTwice.step.2.step.2

def outerReturn : Interpreter Unit 10 :=
  innerReturn.step.2

def strayReturn : Interpreter Unit 10 :=
  callTwice.onProcessor ({ · with pc := 8, stack := [] })

theorem subroutines_nest_callTwice :
    callTwice.Executes ⟨0x2004, .call 4⟩ ∧ Within 2 callTwice.step.2 outerReturn ∧
      outerReturn.Executes ⟨0x00EE, .ret⟩ ∧ outerReturn.stack = [2, 7] ∧
        outerReturn.step.2.machine.processor.pc = 2 ∧ outerReturn.step.2.stack = [7] ∧
          Trail callTwice.reset [] strayReturn ∧ strayReturn.Underflows := by
  have call : callTwice.Executes ⟨0x2004, .call 4⟩ := ⟨rfl, _, _, rfl, rfl⟩
  have called : callTwice.step.2.step = (.ok true, innerReturn) := Prod.ext rfl rfl
  have returned : innerReturn.step = (.ok true, outerReturn) := Prod.ext rfl rfl
  have run : Within 2 callTwice.step.2 outerReturn :=
    .step (.step (.here (by decide)) called (by decide)) returned (by decide)
  have ret : outerReturn.Executes ⟨0x00EE, .ret⟩ := ⟨rfl, _, _, Prod.ext rfl rfl, rfl⟩
  have stray : strayReturn.Executes ⟨0x00EE, .ret⟩ := ⟨rfl, _, _, rfl, rfl⟩
  have trail : Trail callTwice.reset [] strayReturn := .host .here rfl
  obtain ⟨nest, underflows, -⟩ := @subroutines_nest Unit 10
  obtain ⟨-, pc, stack⟩ := nest callTwice outerReturn 4 _ _ call run ret rfl
  exact ⟨call, run, ret, rfl, pc, stack, trail, (underflows _ _ _ _ trail stray).2 rfl⟩

end Chip8
