import Chip8.Proofs.RequestRun

/-! Well-formed emulators.

Whatever a host asks for, also what is refused or fails, and whatever numbers it puts into the
processor, all parts of an emulator keep to their bounds, and the depth of the call stack is the
number of calls less that of returns since the last reset.
-/

set_option autoImplicit false

namespace Chip8

inductive Adjustment where
  | register (x : Register) (value : Int)
  | index (value : Int)
  | delay (value : Int)
  | sound (value : Int)
  | countDown

def Adjustment.apply (p : Processor) : Adjustment → Processor
  | register x value => p.put x value
  | index value => p.putIndex value
  | delay value => p.putDelay value
  | sound value => p.putSound value
  | countDown => p.countDown

theorem Adjustment.traced (p : Processor) (a : Adjustment) : p.Traced [] (a.apply p) := by
  cases a with
  | register x value => exact .still rfl rfl
  | index value => exact .still rfl rfl
  | delay value => exact .still rfl rfl
  | sound value => exact .still rfl rfl
  | countDown => exact .still rfl rfl

namespace Emulator

variable {e : Emulator}

def adjust (e : Emulator) (a : Adjustment) : Emulator :=
  e.onInterpreter (·.onProcessor a.apply)

/-! ### What a request executes -/

theorem traced_repeat_countDown (p : Processor) (count : Nat) :
    p.Traced [] (count.repeat Processor.countDown p) := by
  induction count with
  | zero => exact .still rfl rfl
  | succ count ih => exact ih.trans (.still rfl rfl)

theorem LeadsTo.traced {i : Interpreter Debugger memorySize} {steps : Nat} {m : Machine memorySize}
    (leads : LeadsTo i steps m) (coherent : i.Coherent) :
    i.machine.processor.Traced (i.executed steps) m.processor := by
  obtain ⟨halt, count, timers, j, way, rfl⟩ := leads
  have traced := (coherent.traced_ran way).trans (traced_repeat_countDown j.machine.processor timers)
  rw [List.append_nil] at traced
  exact traced

/-- A request leaves what the instructions that it executed leave, unless it resets. -/
theorem Ready.traced_perform (ready : e.Ready) {request : Request} (going : request ≠ .reset) :
    e.processor.Traced (e.executed request) (e.perform request).2.processor := by
  have way := e.performed request
  generalize (e.perform request).2 = left at way ⊢
  rw [executed_eq]
  cases way with
  | reset => exact absurd rfl going
  | ran runs leads =>
    have traced := leads.traced (ready.coherent_of_runs runs)
    rw [machine_of_runs runs] at traced
    rw [runs]
    exact traced
  | still runs kept =>
    have same : left.processor = e.processor := congrArg Prod.fst kept
    rw [runs, same]
    exact .still rfl rfl

/-! ### Histories -/

/-- The log after a request: a reset starts a new one. -/
def logged (e : Emulator) (log : List Instruction) : Request → List Instruction
  | .reset => []
  | request => log ++ e.executed request

theorem logged_of_ne (log : List Instruction) {request : Request} (going : request ≠ .reset) :
    e.logged log request = log ++ e.executed request := by
  cases request with
  | reset => exact absurd rfl going
  | _ => rfl

/-- The emulators that a host can get to, with the instructions that were executed to their ends
since the last reset. -/
inductive History : Emulator → List Instruction → Prop where
  | created {settings : Settings} {screen : Screen} {keypad : Keypad} {entropy : Int}
      {e : Emulator} : create settings screen keypad entropy = .ok e → History e []
  | performed {e : Emulator} {log : List Instruction} (request : Request) :
      History e log → History (e.perform request).2 (e.logged log request)
  | adjusted {e : Emulator} {log : List Instruction} (a : Adjustment) :
      History e log → History (e.adjust a) log

variable {log : List Instruction}

theorem Reachable.history (reachable : e.Reachable) : ∃ log, e.History log := by
  induction reachable with
  | created created => exact ⟨[], .created created⟩
  | performed request earlier ih =>
    obtain ⟨log, history⟩ := ih
    exact ⟨_, .performed request history⟩

theorem History.ready (history : e.History log) : e.Ready := by
  induction history with
  | created created => exact ready_of_create created
  | performed request earlier ih => exact ih.perform request
  | adjusted a earlier ih => exact ih.of_bytes_eq rfl rfl rfl rfl

theorem processor_create {settings : Settings} {screen : Screen} {keypad : Keypad} {entropy : Int}
    (created : create settings screen keypad entropy = .ok e) : e.processor = .powerOn := by
  unfold create at created
  split at created
  · cases created
  · cases created
    rfl

theorem traced_powerOn : Processor.powerOn.Traced [] .powerOn := .still rfl rfl

/-- All instructions since the last reset make one trace from power-on. -/
theorem History.traced (history : e.History log) : Processor.powerOn.Traced log e.processor := by
  induction history with
  | created created =>
    rw [processor_create created]
    exact traced_powerOn
  | @performed e log request earlier ih =>
    by_cases resets : request = .reset
    · subst resets
      exact traced_powerOn
    · rw [logged_of_ne log resets]
      exact ih.trans (earlier.ready.traced_perform resets)
  | @adjusted e log a earlier ih =>
    have traced := ih.trans (a.traced e.processor)
    rw [List.append_nil] at traced
    exact traced

/-- All parts of an emulator are within their bounds, and the call stack is as deep as a log says. -/
structure WellFormed (e : Emulator) (log : List Instruction) : Prop where
  registers : e.processor.v.toList.length = 16
  register_le : ∀ value ∈ e.processor.v.toList, value.toNat ≤ 255
  index_le : e.processor.index.toNat ≤ 0xFFFF
  delay_le : e.processor.delay.toNat ≤ 255
  sound_le : e.processor.sound.toNat ≤ 255
  keyRegister_le : e.processor.keyRegister.val ≤ 15
  bytes : e.machine.memory.bytes.toList.length = 4096
  byte_le : ∀ b ∈ e.machine.memory.bytes.toList, b.toNat ≤ 255
  pixels : e.machine.screen.pixels.toList.length = 2048
  cached : ∀ cache, e.interpreter.cache = some cache → ∀ a ∈ cache, 0 ≤ a ∧ a ≤ 0xFFE
  stack : ∀ a ∈ e.processor.stack, 2 ≤ a ∧ a ≤ 0x1000
  depth : (e.processor.stack.length : Int) = calls log - returns log
  pc : 0 ≤ e.processor.pc ∧ e.processor.pc ≤ 0x10FE

theorem inBounds_powerOn : Processor.powerOn.InBounds where
  pc_nonneg := by decide
  pc_le := by decide
  stack a member := absurd member List.not_mem_nil

/-- Every emulator that a host can get to is well formed. -/
theorem wellFormed_of_history (history : e.History log) : e.WellFormed log where
  registers := Vector.length_toList
  register_le value member := Nat.le_of_lt_succ value.toNat_lt
  index_le := Nat.le_of_lt_succ e.processor.index.toNat_lt
  delay_le := Nat.le_of_lt_succ e.processor.delay.toNat_lt
  sound_le := Nat.le_of_lt_succ e.processor.sound.toNat_lt
  keyRegister_le := Nat.le_of_lt_succ e.processor.keyRegister.isLt
  bytes := Vector.length_toList
  byte_le b member := Nat.le_of_lt_succ b.toNat_lt
  pixels := Vector.length_toList
  cached cache present a member := by
    -- An entry is an instruction that memory holds, so both its bytes are inside.
    have entry := Std.HashMap.getElem?_eq_some_getElem member
    have inside := Machine.inside_of_decoded (history.ready.coherent cache present a _ entry)
    have last : a + 1 < 4096 := inside.2
    exact ⟨inside.1, by omega⟩
  stack := (history.traced.bounds inBounds_powerOn).stack
  depth := by
    have depth := history.traced.depth
    have empty : Processor.powerOn.stack.length = 0 := rfl
    omega
  pc := ⟨(history.traced.bounds inBounds_powerOn).pc_nonneg,
    (history.traced.bounds inBounds_powerOn).pc_le⟩

def callOnce : List UInt8 :=
  [0x22, 0x04, 0x12, 0x02, 0x00, 0xEE]

/-- Inside the subroutine, after a register was given a number that does not fit. -/
theorem wellFormed_of_history_callOnce :
    let loaded := (usual.perform (.load callOnce "call")).2
    let left := ((loaded.adjust (.register 3 (-2))).perform (.runSteps 1)).2
    left.History [.call 0x204] ∧ left.WellFormed [.call 0x204] ∧ left.processor.stack = [0x202] := by
  intro loaded left
  have created : (create {}).toOption = some usual := by rw [usual, Option.some_get]
  have new : usual.History [] := .created (eq_ok_of_toOption created)
  have loaded_log : usual.logged [] (.load callOnce "call") = [] := rfl
  have left_log : (loaded.adjust (.register 3 (-2))).logged [] (.runSteps 1) = [.call 0x204] := by
    decide +kernel
  have history : left.History [.call 0x204] := by
    rw [← left_log]
    refine .performed (.runSteps 1) (.adjusted (.register 3 (-2)) ?_)
    rw [← loaded_log]
    exact .performed (.load callOnce "call") new
  have inside : left.processor.stack = [0x202] := by decide +kernel
  exact ⟨history, wellFormed_of_history history, inside⟩

end Emulator

end Chip8
