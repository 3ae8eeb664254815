import Chip8.Emulator.Basic
import Chip8.Proofs.Coherence

/-! Where instructions go: the program counter and the call stack.

An instruction goes on, skips, jumps, calls or returns, and this is all that happens to the program
counter and the call stack. Along a run the counter and the return addresses therefore stay within
bounds, and the depth of the stack is the number of calls less that of returns.
-/

set_option autoImplicit false

namespace Chip8

variable {σ : Type} {size : Nat}

/-! ### Instructions -/

namespace Instruction

def isCall : Instruction → Bool
  | call _ => true
  | _ => false

def isRet : Instruction → Bool
  | ret => true
  | _ => false

def isJump : Instruction → Bool
  | jump _ | jumpFrom _ => true
  | _ => false

def isSkip : Instruction → Bool
  | skipIfByte _ _ | skipUnlessByte _ _ | skipIfSame _ _ | skipUnlessSame _ _ | skipIfDown _
  | skipIfUp _ => true
  | _ => false

/-- What an instruction does to a processor whose program counter is past it. -/
inductive Flow (i : Instruction) (p q : Processor) : Prop where
  | onward : i.isCall = false → i.isRet = false → i.isJump = false → q.pc = p.pc →
      q.stack = p.stack → Flow i p q
  | skipped : i.isSkip = true → q.pc = p.pc + 2 → q.stack = p.stack → Flow i p q
  | jumped : i.isJump = true → 0 ≤ q.pc → q.pc ≤ 0x10FE → q.stack = p.stack → Flow i p q
  | called : i.isCall = true → 0 ≤ q.pc → q.pc ≤ 0xFFF → q.stack = p.pc :: p.stack → Flow i p q
  | returned : i.isRet = true → p.stack = q.pc :: q.stack → Flow i p q

variable {i : Instruction} {p q : Processor}

theorem straight_of_isSkip (skip : i.isSkip = true) :
    i.isCall = false ∧ i.isRet = false ∧ i.isJump = false := by
  cases i with
  | skipIfByte | skipUnlessByte | skipIfSame | skipUnlessSame | skipIfDown | skipIfUp =>
    exact ⟨rfl, rfl, rfl⟩
  | _ => cases skip

theorem straight_of_isJump (jump : i.isJump = true) : i.isCall = false ∧ i.isRet = false := by
  cases i with
  | jump | jumpFrom => exact ⟨rfl, rfl⟩
  | _ => cases jump

theorem isRet_of_isCall (call : i.isCall = true) : i.isRet = false := by
  cases i with
  | call target => rfl
  | _ => cases call

theorem Flow.skipIf (skip : i.isSkip = true) (test : Bool) : Flow i p (p.skipIf test) := by
  cases test with
  | true => exact .skipped skip rfl rfl
  | false =>
    obtain ⟨call, ret, jump⟩ := straight_of_isSkip skip
    exact .onward call ret jump rfl rfl

end Instruction

open Instruction (Flow)

namespace Machine

variable {m n : Machine size} {stores : List Store}

theorem flow_ret (done : m.ret = .ok (n, stores)) : Flow .ret m.processor n.processor := by
  unfold ret at done
  split at done
  · cases done
  · next pc stack depth =>
    cases done
    exact .returned rfl depth

theorem flow_draw {x y : Register} {rows : Fin 16} (done : m.draw x y rows = .ok (n, stores)) :
    Flow (.draw x y rows) m.processor n.processor := by
  obtain ⟨p, memory, screen, keypad, random⟩ := m
  simp only [draw] at done
  split at done
  · cases done
  · cases done
    exact .onward rfl rfl rfl rfl rfl

theorem flow_storeAtIndex {i : Instruction} {data : List UInt8} (call : i.isCall = false)
    (ret : i.isRet = false) (jump : i.isJump = false)
    (done : m.storeAtIndex data = .ok (n, stores)) : Flow i m.processor n.processor := by
  obtain ⟨p, memory, screen, keypad, random⟩ := m
  simp only [storeAtIndex] at done
  split at done
  · cases done
  · cases done
    exact .onward call ret jump rfl rfl

theorem flow_loadRegisters {x : Register} (done : m.loadRegisters x = .ok (n, stores)) :
    Flow (.loadRegisters x) m.processor n.processor := by
  obtain ⟨p, memory, screen, keypad, random⟩ := m
  simp only [loadRegisters] at done
  split at done
  · cases done
  · cases done
    exact .onward rfl rfl rfl rfl rfl

/-- Every instruction that succeeds goes in one of these ways. -/
theorem flow {i : Instruction} (done : m.execute i = .ok (n, stores)) :
    Flow i m.processor n.processor := by
  cases i with
  | ret => exact flow_ret done
  | draw x y rows => exact flow_draw done
  | storeDecimal x => exact flow_storeAtIndex rfl rfl rfl done
  | storeRegisters x => exact flow_storeAtIndex rfl rfl rfl done
  | loadRegisters x => exact flow_loadRegisters done
  | jump target =>
    cases done
    have := target.isLt
    exact .jumped rfl (by dsimp only; omega) (by dsimp only; omega) rfl
  | jumpFrom target =>
    cases done
    have := target.isLt
    have := (m.processor.get .first).toNat_lt
    exact .jumped rfl (by dsimp only; omega) (by dsimp only; omega) rfl
  | call target =>
    cases done
    have := target.isLt
    exact .called rfl (by simp only [Processor.call]; omega) (by simp only [Processor.call]; omega) rfl
  | skipIfByte | skipUnlessByte | skipIfSame | skipUnlessSame | skipIfDown | skipIfUp =>
    cases done
    exact .skipIf rfl _
  -- The others leave the program counter and the stack alone.
  | _ =>
    cases done
    exact .onward rfl rfl rfl rfl rfl

end Machine

/-! ### Logs of instructions -/

def calls (log : List Instruction) : Nat :=
  log.countP (·.isCall)

def returns (log : List Instruction) : Nat :=
  log.countP (·.isRet)

/-- A call makes the stack one deeper and a return one less deep. -/
theorem Instruction.Flow.depth {i : Instruction} {p q : Processor} (flow : Flow i p q) :
    q.stack.length + returns [i] = p.stack.length + calls [i] := by
  simp only [returns, calls, List.countP_singleton]
  cases flow with
  | onward call ret jump next stack => simp [call, ret, stack]
  | skipped skip next stack =>
    obtain ⟨call, ret, -⟩ := straight_of_isSkip skip
    simp [call, ret, stack]
  | jumped jump nonneg le stack =>
    obtain ⟨call, ret⟩ := straight_of_isJump jump
    simp [call, ret, stack]
  | called call nonneg le stack => simp [call, isRet_of_isCall call, stack]
  | returned ret stack =>
    have call : i.isCall = false := by
      cases call : i.isCall with
      | false => rfl
      | true => rw [isRet_of_isCall call] at ret; cases ret
    simp [call, ret, stack]

namespace Processor

structure InBounds (p : Processor) : Prop where
  pc_nonneg : 0 ≤ p.pc
  pc_le : p.pc ≤ 0x10FE
  stack : ∀ a ∈ p.stack, 2 ≤ a ∧ a ≤ 0x1000

structure Traced (p : Processor) (log : List Instruction) (q : Processor) : Prop where
  bounds : p.InBounds → q.InBounds
  depth : q.stack.length + returns log = p.stack.length + calls log

variable {p q r : Processor}

theorem Traced.still (pc : q.pc = p.pc) (stack : q.stack = p.stack) : p.Traced [] q where
  bounds bounds := {
    pc_nonneg := pc ▸ bounds.pc_nonneg
    pc_le := pc ▸ bounds.pc_le
    stack := stack ▸ bounds.stack }
  depth := by rw [stack]; rfl

theorem Traced.trans {first rest : List Instruction} (earlier : p.Traced first q)
    (later : q.Traced rest r) : p.Traced (first ++ rest) r where
  bounds bounds := later.bounds (earlier.bounds bounds)
  depth := by
    have := earlier.depth
    have := later.depth
    simp only [returns, calls, List.countP_append] at *
    omega

/-- Going past an instruction that was fetched from inside memory. -/
theorem Traced.passed {pc : Int} (nonneg : 0 ≤ pc) (inside : pc + 1 < memorySize) :
    p.Traced [] { p with pc := pc + 2 } where
  bounds bounds := by
    have inside : pc + 1 < 4096 := inside
    exact ⟨by dsimp only; omega, by dsimp only; omega, bounds.stack⟩
  depth := rfl

theorem Traced.flow {i : Instruction} (flow : Flow i p q) (low : 2 ≤ p.pc) (high : p.pc ≤ 0x1000) :
    p.Traced [i] q where
  bounds bounds := by
    have below := bounds.stack
    cases flow with
    | onward call ret jump next stack =>
      exact ⟨by omega, by omega, by rw [stack]; exact below⟩
    | skipped skip next stack =>
      exact ⟨by omega, by omega, by rw [stack]; exact below⟩
    | jumped jump nonneg le stack => exact ⟨nonneg, le, by rw [stack]; exact below⟩
    | called call nonneg le stack =>
      refine ⟨nonneg, by omega, fun a member => ?_⟩
      rw [stack, List.mem_cons] at member
      -- The address that is pushed is the one behind the call.
      rcases member with rfl | member
      · exact ⟨low, high⟩
      · exact below a member
    | returned ret stack =>
      have top := below q.pc (by rw [stack]; exact List.mem_cons_self)
      exact ⟨by omega, by omega, fun a member => below a (by rw [stack]; exact .tail _ member)⟩
  depth := flow.depth

end Processor

/-! ### Steps and runs -/

namespace Interpreter

variable {i j : Interpreter σ memorySize}

def executed? (i : Interpreter σ size) : Option Instruction :=
  if i.machine.processor.waiting then none
  else
    match i.step.1, (i.fetch i.machine.processor.pc).1 with
    | .ok true, .ok decoded => some decoded.instruction
    | _, _ => none

/-- The instructions that a run executes to their ends, in order. -/
def executed : (steps : Nat) → Interpreter σ size → List Instruction
  | 0, _ => []
  | steps + 1, i =>
    match i.step with
    | (.ok true, j) => i.executed?.toList ++ if j.stopRequested then [] else executed steps j
    | _ => []

section

variable {i j fetched : Interpreter σ size} {steps : Nat}

theorem executed?_of_waiting (waiting : i.machine.processor.waiting = true) :
    i.executed? = none := by
  rw [executed?, if_pos waiting]

theorem executed?_of_failed {fault : Fault} (step : i.step = (.error fault, j)) :
    i.executed? = none := by
  rw [executed?, step]
  split <;> rfl

theorem executed?_of_vetoed (step : i.step = (.ok false, j)) : i.executed? = none := by
  rw [executed?, step]
  split <;> rfl

theorem executed?_of_executed {decoded : Decoded} (active : i.machine.processor.waiting = false)
    (fetch : i.fetch i.machine.processor.pc = (.ok decoded, fetched))
    (step : i.step = (.ok true, j)) : i.executed? = some decoded.instruction := by
  rw [executed?, if_neg (by simp [active]), step, fetch]

theorem executed_of_failed {fault : Fault} (step : i.step = (.error fault, j)) :
    i.executed (steps + 1) = [] := by
  rw [executed, step]

theorem executed_of_vetoed (step : i.step = (.ok false, j)) : i.executed (steps + 1) = [] := by
  rw [executed, step]

theorem executed_of_requested (step : i.step = (.ok true, j)) (requested : j.stopRequested = true) :
    i.executed (steps + 1) = i.executed?.toList := by
  rw [executed, step]
  simp [requested]

theorem executed_of_more (step : i.step = (.ok true, j)) (quiet : j.stopRequested = false) :
    i.executed (steps + 1) = i.executed?.toList ++ j.executed steps := by
  rw [executed, step]
  simp [quiet]

theorem executed_one (i : Interpreter σ size) : i.executed 1 = i.executed?.toList := by
  cases step : i.step with
  | mk result j =>
    match result with
    | .error fault => rw [executed_of_failed step, executed?_of_failed step, Option.toList_none]
    | .ok false => rw [executed_of_vetoed step, executed?_of_vetoed step, Option.toList_none]
    | .ok true =>
      rw [executed, step]
      simp [executed]

theorem processor_fetch {pc : Int} {result : Except Cause Decoded}
    (fetch : i.fetch pc = (result, fetched)) :
    fetched.machine.processor = i.machine.processor := by
  cases look : i.cache.bind (·[pc]?) with
  | some decoded =>
    rw [fetch_of_hit look] at fetch
    cases fetch
    rfl
  | none =>
    rw [fetch_of_miss look] at fetch
    cases fetch
    exact i.machine.processor_readWord pc

theorem processor_passed {pc : Int} {result : Except Cause Decoded} {word : Word} {go : Bool}
    {asked : Interpreter σ size} (fetch : i.fetch pc = (result, fetched))
    (ask : fetched.ask pc word = (go, asked)) :
    (asked.passed pc).machine.processor = { i.machine.processor with pc := pc + 2 } := by
  rw [ask_keeps ask, ← processor_fetch fetch]
  rfl

end

theorem traced_poll (m : Machine size) : m.processor.Traced [] m.poll.processor := by
  unfold Machine.poll
  cases m.keypad.first? with
  | none => exact .still rfl rfl
  | some key => exact .still rfl rfl

/-- A step executes at most one instruction, whose word is inside memory. -/
theorem Coherent.traced_step (coherent : i.Coherent) {result : Except Fault Bool}
    (step : i.step = (result, j)) :
    i.machine.processor.Traced i.executed?.toList j.machine.processor := by
  cases stepped step with
  | polled waiting =>
    rw [executed?_of_waiting waiting]
    exact traced_poll i.machine
  | unfetched active fetch =>
    rw [executed?_of_failed step, processor_fetch fetch]
    exact .still rfl rfl
  | vetoed active fetch ask =>
    rw [executed?_of_vetoed step, ask_keeps ask]
    exact .still (by rw [processor_fetch fetch]) (by rw [processor_fetch fetch])
  | failed active fetch ask failed =>
    -- There was an instruction, so its address is inside memory.
    obtain ⟨nonneg, inside⟩ := Machine.inside_of_decoded (coherent.fetch fetch).1.symm
    rw [executed?_of_failed step, processor_passed fetch ask]
    exact .passed nonneg inside
  | executed active fetch ask done =>
    obtain ⟨nonneg, inside⟩ := Machine.inside_of_decoded (coherent.fetch fetch).1.symm
    have flow := Machine.flow done
    rw [processor_passed fetch ask] at flow
    rw [executed?_of_executed active fetch step, machine_noteStores]
    have last : i.machine.processor.pc + 1 < 4096 := inside
    have moved := Processor.Traced.passed (p := i.machine.processor) nonneg inside
    exact moved.trans (.flow flow (by dsimp only; omega) (by dsimp only; omega))

/-- A run leaves what the instructions that it executed leave. -/
theorem Coherent.traced_ran (coherent : i.Coherent) {steps count : Nat} {halt : Halt}
    (way : Ran i steps halt count j) :
    i.machine.processor.Traced (i.executed steps) j.machine.processor := by
  induction way with
  | completed => exact .still rfl rfl
  | failed step =>
    have traced := coherent.traced_step step
    rw [executed?_of_failed step] at traced
    rw [executed_of_failed step]
    exact traced
  | vetoed step =>
    have traced := coherent.traced_step step
    rw [executed?_of_vetoed step] at traced
    rw [executed_of_vetoed step]
    exact traced
  | requested step requested =>
    have traced := coherent.traced_step step
    rw [executed_of_requested step requested]
    exact traced
  | more step quiet rest ih =>
    rw [executed_of_more step quiet]
    exact (coherent.traced_step step).trans (ih (coherent.step step).1)

end Interpreter

end Chip8
