import Chip8.Proofs.Advance

/-! When a step fails, and with which fault.

A step fails if its word cannot be fetched or is no instruction, if it returns to nowhere, or if it
moves bytes to or from outside memory, and in no other case. The fault names the place, the word as
far as it was fetched, and the first address that is outside.
-/

set_option autoImplicit false

namespace Chip8

variable {σ : Type} {size : Nat}

/-- The number of bytes that an instruction moves to or from memory, from the index on. -/
def Instruction.span : Instruction → Nat
  | draw _ _ rows => rows.val
  | storeDecimal _ => 3
  | storeRegisters x | loadRegisters x => x.val + 1
  | _ => 0

/-! ### Fetching -/

namespace Machine

structure HasWord (m : Machine size) (address : Int) (word : Word) : Prop where
  nonneg : 0 ≤ address
  inside : address + 1 < size
  bytes : word.toNat =
    (m.memory.byteAt address.toNat).toNat * 256 + (m.memory.byteAt (address + 1).toNat).toNat

variable {m : Machine size} {address : Int}

theorem readWord_eq_ok_iff {word : Word} :
    (m.readWord address).1 = .ok word ↔ m.HasWord address word := by
  rw [readWord_fst]
  constructor
  · intro read
    cases high : outOfRange? size address 1 with
    | some access => simp [high] at read
    | none =>
      cases low : outOfRange? size (address + 1) 1 with
      | some access => simp [high, low] at read
      | none =>
        simp only [high, low, Except.ok.injEq] at read
        rw [outOfRange?_eq_none_iff] at high low
        exact ⟨high.1, low.2.1, by rw [← read, Word.toNat_ofBytes]⟩
  · intro there
    have high : outOfRange? size address 1 = none := by
      have := there.nonneg
      have := there.inside
      exact outOfRange?_eq_none_iff.2 (by omega)
    have low : outOfRange? size (address + 1) 1 = none := by
      have := there.nonneg
      have := there.inside
      exact outOfRange?_eq_none_iff.2 (by omega)
    simp only [high, low, Except.ok.injEq]
    exact UInt16.toNat_inj.1 (by rw [Word.toNat_ofBytes, there.bytes])

/-- Of the two bytes of a word the first that is outside memory is named. -/
theorem readWord_eq_error_iff {access : OutOfRange} :
    (m.readWord address).1 = .error access ↔
      ((address < 0 ∨ size ≤ address) ∧ access = ⟨address, size⟩) ∨
        (0 ≤ address ∧ address + 1 = size ∧ access = ⟨address + 1, size⟩) := by
  rw [readWord_fst]
  cases high : outOfRange? size address 1 with
  | some found =>
    -- The low byte is not looked at.
    rw [outOfRange?_eq_some_iff] at high
    simp only [Except.error.injEq]
    constructor
    · rintro rfl
      rcases high with ⟨outside, same⟩ | ⟨_, _, _, _⟩
      · exact .inl ⟨outside, same⟩
      · omega
    · rcases high with ⟨outside, rfl⟩ | ⟨_, _, _, _⟩
      · rintro (⟨-, rfl⟩ | ⟨_, _, -⟩)
        · rfl
        · omega
      · omega
  | none =>
    rw [outOfRange?_eq_none_iff] at high
    cases low : outOfRange? size (address + 1) 1 with
    | some found =>
      -- Only the low byte is outside, so the high byte is the last one of memory.
      rw [outOfRange?_eq_some_iff] at low
      simp only [Except.error.injEq]
      constructor
      · rintro rfl
        rcases low with ⟨outside, same⟩ | ⟨_, _, _, _⟩
        · exact .inr ⟨high.1, by omega, same⟩
        · omega
      · rcases low with ⟨outside, rfl⟩ | ⟨_, _, _, _⟩
        · rintro (⟨_, -⟩ | ⟨-, -, rfl⟩)
          · omega
          · rfl
        · omega
    | none =>
      rw [outOfRange?_eq_none_iff] at low
      simp only [reduceCtorEq, false_iff]
      omega

theorem decoded_eq_ok_iff {decoded : Decoded} :
    m.decoded address = .ok decoded ↔
      m.HasWord address decoded.word ∧ Instruction.decode decoded.word = some decoded.instruction := by
  rw [← readWord_eq_ok_iff]
  unfold Machine.decoded
  obtain ⟨word, instruction⟩ := decoded
  cases (m.readWord address).1 with
  | error access => simp
  | ok found =>
    cases known : Instruction.decode found with
    | none =>
      simp only [known, reduceCtorEq, Except.ok.injEq, false_iff, not_and]
      rintro rfl
      simp [known]
    | some other =>
      simp only [known, Except.ok.injEq, Decoded.mk.injEq]
      constructor
      · rintro ⟨rfl, rfl⟩
        exact ⟨rfl, known⟩
      · rintro ⟨rfl, same⟩
        exact ⟨rfl, Option.some.inj (known.symm.trans same)⟩

theorem decoded_eq_error_iff {cause : Cause} :
    m.decoded address = .error cause ↔
      (∃ access, (m.readWord address).1 = .error access ∧ cause = .addressOutOfRange access) ∨
        ∃ word, m.HasWord address word ∧ Instruction.decode word = none ∧
          cause = .unknownOpcode word.toNat := by
  simp only [← readWord_eq_ok_iff]
  unfold Machine.decoded
  cases (m.readWord address).1 with
  | error access => simp [eq_comm]
  | ok found =>
    cases known : Instruction.decode found with
    | none => simp [known, eq_comm]
    | some instruction => simp [known]

end Machine

/-! ### Executing -/

theorem Processor.length_firstRegisters (p : Processor) (x : Register) :
    (p.firstRegisters x).length = x.val + 1 := by
  rw [firstRegisters, List.length_take, Vector.length_toList]
  omega

namespace Memory

theorem readRange_eq_error_iff {m : Memory size} {start : Int} {count : Nat} {access : OutOfRange} :
    m.readRange start count = .error access ↔
      0 < count ∧ outOfRange? size start count = some access := by
  unfold readRange
  by_cases empty : count = 0
  · simp [empty]
  · rw [if_neg (by omega), Int.toNat_natCast]
    cases outOfRange? size start count with
    | none => simp
    | some found => simp [Nat.pos_of_ne_zero empty]

theorem writeRange_eq_error_iff {m : Memory size} {start : Int} {data : List UInt8}
    {access : OutOfRange} :
    m.writeRange start data = .error access ↔
      0 < data.length ∧ outOfRange? size start data.length = some access := by
  unfold writeRange
  cases data with
  | nil => simp
  | cons b data =>
    rw [if_neg (by simp)]
    cases outOfRange? size start (b :: data).length with
    | none => simp
    | some found => simp

end Memory

namespace Machine

variable {m : Machine size} {cause : Cause}

theorem ret_eq_error_iff :
    m.ret = .error cause ↔ m.processor.stack = [] ∧ cause = .stackUnderflow := by
  unfold ret
  cases m.processor.stack with
  | nil => simp [eq_comm]
  | cons pc stack => simp [onProcessor]

/-- An access of some bytes from the index on fails, and is the cause of a fault. -/
def Misses (m : Machine size) (count : Nat) (cause : Cause) : Prop :=
  0 < count ∧ ∃ access, outOfRange? size m.processor.index.toNat count = some access ∧
    cause = .addressOutOfRange access

theorem misses_iff {α : Type} {count : Nat} {result : Except OutOfRange α}
    (fails : ∀ access, result = .error access ↔
      0 < count ∧ outOfRange? size m.processor.index.toNat count = some access) :
    m.Misses count cause ↔
      ∃ access, result = .error access ∧ cause = .addressOutOfRange access := by
  simp only [Misses, fails, and_assoc, exists_and_left]

theorem draw_eq_error_iff {x y : Register} {rows : Fin 16} :
    m.draw x y rows = .error cause ↔ m.Misses rows.val cause := by
  obtain ⟨p, memory, screen, keypad, random⟩ := m
  rw [misses_iff fun _ => Memory.readRange_eq_error_iff (m := memory)]
  simp only [draw]
  cases memory.readRange p.index.toNat rows.val with
  | error access => simp [eq_comm]
  | ok result => simp

theorem loadRegisters_eq_error_iff {x : Register} :
    m.loadRegisters x = .error cause ↔ m.Misses (x.val + 1) cause := by
  obtain ⟨p, memory, screen, keypad, random⟩ := m
  rw [misses_iff fun _ => Memory.readRange_eq_error_iff (m := memory)]
  simp only [loadRegisters]
  have counted : (x.val : Int) + 1 = ((x.val + 1 : Nat) : Int) := rfl
  rw [counted]
  cases memory.readRange p.index.toNat (x.val + 1 : Nat) with
  | error access => simp [eq_comm]
  | ok result => simp

theorem storeAtIndex_eq_error_iff {data : List UInt8} :
    m.storeAtIndex data = .error cause ↔ m.Misses data.length cause := by
  obtain ⟨p, memory, screen, keypad, random⟩ := m
  rw [misses_iff fun _ => Memory.writeRange_eq_error_iff (m := memory)]
  simp only [storeAtIndex]
  cases memory.writeRange p.index.toNat data with
  | error access => simp [eq_comm]
  | ok result => simp

/-- Only a return and the transfers of bytes can fail. -/
theorem execute_eq_error_iff {i : Instruction} :
    m.execute i = .error cause ↔
      (i = .ret ∧ m.processor.stack = [] ∧ cause = .stackUnderflow) ∨ m.Misses i.span cause := by
  cases i with
  | ret => simp [execute, ret_eq_error_iff, Misses, Instruction.span]
  | draw x y rows => simp [execute, draw_eq_error_iff, Instruction.span]
  | loadRegisters x => simp [execute, loadRegisters_eq_error_iff, Instruction.span]
  | storeDecimal x =>
    simp [execute, storeAtIndex_eq_error_iff, Instruction.span, Processor.decimalDigits]
  | storeRegisters x =>
    simp [execute, storeAtIndex_eq_error_iff, Instruction.span, Processor.length_firstRegisters]
  -- The others move no bytes and always succeed.
  | _ => simp [execute, onProcessor, drawRandom, Misses, Instruction.span]

theorem execute_eq_error_congr {n : Machine size} (stack : n.processor.stack = m.processor.stack)
    (index : n.processor.index = m.processor.index) {i : Instruction} :
    n.execute i = .error cause ↔ m.execute i = .error cause := by
  rw [execute_eq_error_iff, execute_eq_error_iff, Misses, Misses, stack, index]

theorem execute_past_eq_error_iff {i : Instruction} :
    m.past.execute i = .error cause ↔ m.execute i = .error cause :=
  execute_eq_error_congr (m := m) (n := m.past) rfl rfl

/-! ### Advancing -/

/-- Why the instruction at the program counter of a machine fails, and its word if that was fetched. -/
inductive Fails (m : Machine size) : Cause → Option Word → Prop where
  | outside : m.processor.pc < 0 ∨ size ≤ m.processor.pc →
      Fails m (.addressOutOfRange ⟨m.processor.pc, size⟩) none
  -- The first byte of the word is the last of memory.
  | cutOff : 0 ≤ m.processor.pc → m.processor.pc + 1 = size →
      Fails m (.addressOutOfRange ⟨m.processor.pc + 1, size⟩) none
  | unknown {word : Word} : m.HasWord m.processor.pc word → Instruction.decode word = none →
      Fails m (.unknownOpcode word.toNat) (some word)
  | strayReturn {word : Word} : m.HasWord m.processor.pc word →
      Instruction.decode word = some .ret → m.processor.stack = [] →
      Fails m .stackUnderflow (some word)
  | transferOutside {word : Word} {i : Instruction} : m.HasWord m.processor.pc word →
      Instruction.decode word = some i → 0 < i.span → size ≤ m.processor.index.toNat →
      Fails m (.addressOutOfRange ⟨m.processor.index.toNat, size⟩) (some word)
  | transferCutOff {word : Word} {i : Instruction} : m.HasWord m.processor.pc word →
      Instruction.decode word = some i → m.processor.index.toNat < size →
      size < m.processor.index.toNat + i.span →
      Fails m (.addressOutOfRange ⟨m.processor.index.toNat + i.span - 1, size⟩) (some word)

theorem fails_of_undecoded (undecoded : m.decoded m.processor.pc = .error cause) :
    ∃ word, m.Fails cause word ∧ cause.opcode? = word.map fun w => (w.toNat : Int) := by
  rcases decoded_eq_error_iff.1 undecoded with ⟨access, read, rfl⟩ | ⟨word, there, unknown, rfl⟩
  · rcases readWord_eq_error_iff.1 read with ⟨outside, rfl⟩ | ⟨nonneg, last, rfl⟩
    · exact ⟨none, .outside outside, rfl⟩
    · exact ⟨none, .cutOff nonneg last, rfl⟩
  · exact ⟨some word, .unknown there unknown, rfl⟩

theorem fails_of_failed {decoded : Decoded} (found : m.decoded m.processor.pc = .ok decoded)
    (failed : m.execute decoded.instruction = .error cause) :
    m.Fails cause (some decoded.word) ∧ cause.opcode? = none := by
  obtain ⟨there, known⟩ := decoded_eq_ok_iff.1 found
  rcases execute_eq_error_iff.1 failed with ⟨ret, empty, rfl⟩ | ⟨some, access, missed, rfl⟩
  · exact ⟨.strayReturn there (ret ▸ known) empty, rfl⟩
  · rcases outOfRange?_eq_some_iff.1 missed with ⟨outside, rfl⟩ | ⟨nonneg, below, beyond, rfl⟩
    · exact ⟨.transferOutside there known some (by omega), rfl⟩
    · exact ⟨.transferCutOff there known (by omega) (by omega), rfl⟩

/-- A cause comes from fetching or from executing. -/
theorem Fails.decoded_or_execute {word : Option Word} (fails : m.Fails cause word) :
    (m.decoded m.processor.pc = .error cause ∧
        cause.opcode? = word.map fun w => (w.toNat : Int)) ∨
      ∃ decoded, m.decoded m.processor.pc = .ok decoded ∧ word = some decoded.word ∧
        m.execute decoded.instruction = .error cause ∧ cause.opcode? = none := by
  cases fails with
  | outside out =>
    exact .inl ⟨decoded_eq_error_iff.2 (.inl ⟨_, readWord_eq_error_iff.2 (.inl ⟨out, rfl⟩), rfl⟩), rfl⟩
  | cutOff nonneg last =>
    have read := readWord_eq_error_iff (m := m).2 (.inr ⟨nonneg, last, rfl⟩)
    exact .inl ⟨decoded_eq_error_iff.2 (.inl ⟨_, read, rfl⟩), rfl⟩
  | unknown there unknown =>
    exact .inl ⟨decoded_eq_error_iff.2 (.inr ⟨_, there, unknown, rfl⟩), rfl⟩
  | @strayReturn word there known empty =>
    have failed := execute_eq_error_iff.2 (.inl ⟨rfl, empty, rfl⟩)
    exact .inr ⟨⟨word, .ret⟩, decoded_eq_ok_iff.2 ⟨there, known⟩, rfl, failed, rfl⟩
  | @transferOutside word i there known some outside =>
    have missed : outOfRange? size m.processor.index.toNat i.span = _ :=
      outOfRange?_eq_some_iff.2 (.inl ⟨.inr (by omega), rfl⟩)
    have failed := execute_eq_error_iff.2 (.inr ⟨some, _, missed, rfl⟩)
    exact .inr ⟨⟨word, i⟩, decoded_eq_ok_iff.2 ⟨there, known⟩, rfl, failed, rfl⟩
  | @transferCutOff word i there known below beyond =>
    have missed : outOfRange? size m.processor.index.toNat i.span = _ :=
      outOfRange?_eq_some_iff.2 (.inr ⟨by omega, by omega, by omega, rfl⟩)
    have failed := execute_eq_error_iff.2 (.inr ⟨by omega, _, missed, rfl⟩)
    exact .inr ⟨⟨word, i⟩, decoded_eq_ok_iff.2 ⟨there, known⟩, rfl, failed, rfl⟩

def Blames (m : Machine size) (fault : Fault) : Prop :=
  ∃ word, m.Fails fault.cause word ∧ fault.pc = some m.processor.pc ∧
    fault.opcode = word.map fun w => (w.toNat : Int)

theorem advance_eq_error_iff {fault : Fault} :
    m.advance = .error fault ↔ m.processor.waiting = false ∧ m.Blames fault := by
  constructor
  · intro failed
    cases waiting : m.processor.waiting with
    | true =>
      rw [advance_of_waiting waiting] at failed
      cases failed
    | false =>
      refine ⟨rfl, ?_⟩
      cases found : m.decoded m.processor.pc with
      | error cause =>
        rw [advance_of_undecoded waiting found] at failed
        cases failed
        obtain ⟨word, fails, opcode⟩ := fails_of_undecoded found
        exact ⟨word, fails, rfl, by rw [← opcode]; exact Option.or_none⟩
      | ok decoded =>
        cases done : m.past.execute decoded.instruction with
        | ok result =>
          rw [advance_of_executed waiting found done] at failed
          cases failed
        | error cause =>
          rw [advance_of_failed waiting found done] at failed
          cases failed
          -- Having moved past the instruction makes no difference to whether it fails.
          have failed := fails_of_failed found (execute_past_eq_error_iff.1 done)
          refine ⟨_, failed.1, rfl, ?_⟩
          simp [Fault.locate, Fault.ofCause, failed.2]
  · rintro ⟨active, word, fails, pc, opcode⟩
    obtain ⟨cause, place, code⟩ := fault
    dsimp only at fails pc opcode
    subst pc opcode
    rcases fails.decoded_or_execute with ⟨undecoded, named⟩ | ⟨decoded, found, rfl, failed, unnamed⟩
    · rw [advance_of_undecoded active undecoded]
      simp [Fault.locate, Fault.ofCause, named]
    · rw [advance_of_failed active found (execute_past_eq_error_iff.2 failed)]
      simp [Fault.locate, Fault.ofCause, unnamed]

end Machine

/-! ### Steps -/

namespace Interpreter

variable {i : Interpreter σ size}

/-- What the hook answers does not depend on the machine or the cache. -/
theorem ask_fst_congr {j : Interpreter σ size} (hooks : j.hooks = i.hooks)
    (observer : j.observer = i.observer) (pc : Int) (word : Word) :
    (j.ask pc word).1 = (i.ask pc word).1 := by
  unfold ask
  rw [hooks, observer]
  cases i.hooks.onInstruction <;> rfl

/-- Without a cache, and if the hook lets it run, a step fails as the machine does on its own. -/
theorem step_eq_error_iff_advance (uncached : i.cache = none)
    (free : ∀ word, i.machine.HasWord i.machine.processor.pc word →
      (i.ask i.machine.processor.pc word).1 = true) {fault : Fault} :
    i.step.1 = .error fault ↔ i.machine.advance = .error fault := by
  have miss : i.cache.bind (·[i.machine.processor.pc]?) = none := by rw [uncached, Option.bind_none]
  have fetch := fetch_of_miss miss
  cases waiting : i.machine.processor.waiting with
  | true =>
    rw [(Stepped.polled waiting).step_eq, Machine.advance_of_waiting waiting]
    simp
  | false =>
    cases found : i.machine.decoded i.machine.processor.pc with
    | error cause =>
      rw [found] at fetch
      rw [(Stepped.unfetched waiting fetch).step_eq, Machine.advance_of_undecoded waiting found]
      simp
    | ok decoded =>
      rw [found] at fetch
      generalize left : { i with
        machine := (i.machine.readWord i.machine.processor.pc).2
        cache := kept i.cache i.machine.processor.pc (.ok decoded) } = fetched at fetch
      have processor : fetched.machine.processor = i.machine.processor := by
        rw [← left]
        exact i.machine.processor_readWord _
      cases ask : fetched.ask i.machine.processor.pc decoded.word with
      | mk go asked =>
        have goes : (fetched.ask i.machine.processor.pc decoded.word).1 = true := by
          rw [ask_fst_congr (i := i) (by rw [← left]) (by rw [← left])]
          exact free _ (Machine.decoded_eq_ok_iff.1 found).1
        rw [ask] at goes
        obtain rfl := goes
        -- Of the processor, only the index and the stack decide whether an instruction fails.
        have same : ∀ cause, (asked.passed i.machine.processor.pc).machine.execute
            decoded.instruction = .error cause ↔
              i.machine.past.execute decoded.instruction = .error cause := by
          intro cause
          apply Machine.execute_eq_error_congr
          · have stack := congrArg Processor.stack processor
            rw [ask_keeps ask]
            exact stack
          · have index := congrArg Processor.index processor
            rw [ask_keeps ask]
            exact index
        cases done : (asked.passed i.machine.processor.pc).machine.execute decoded.instruction with
        | error cause =>
          rw [(Stepped.failed waiting fetch ask done).step_eq,
            Machine.advance_of_failed waiting found ((same cause).1 done)]
          simp
        | ok result =>
          cases alone : i.machine.past.execute decoded.instruction with
          | error cause =>
            rw [(same cause).2 alone] at done
            cases done
          | ok result' =>
            rw [(Stepped.executed waiting fetch ask done).step_eq,
              Machine.advance_of_executed waiting found alone]
            simp

/-- A step fails exactly if the machine does not wait for a key and its next instruction fails; the
fault names the cause, the place and the word, and its message starts with the place. -/
theorem step_fails_iff (i : Interpreter σ size) (uncached : i.cache = none)
    (free : ∀ word, i.machine.HasWord i.machine.processor.pc word →
      (i.ask i.machine.processor.pc word).1 = true) (fault : Fault) :
    (i.step.1 = .error fault ↔ i.machine.processor.waiting = false ∧ i.machine.Blames fault) ∧
      (i.step.1 = .error fault → ∃ place, Text.IsHex 4 i.machine.processor.pc place ∧
        fault.message.toList = '$' :: place ++ ": error: ".toList ++ fault.cause.text.toList) := by
  have fails : i.step.1 = .error fault ↔
      i.machine.processor.waiting = false ∧ i.machine.Blames fault := by
    rw [step_eq_error_iff_advance uncached free, Machine.advance_eq_error_iff]
  refine ⟨fails, fun failed => ?_⟩
  obtain ⟨-, word, -, pc, -⟩ := fails.1 failed
  have message : fault.message =
      "$" ++ Text.hex 4 i.machine.processor.pc ++ ": error: " ++ fault.cause.text := by
    rw [Fault.message, pc]
    rfl
  refine ⟨_, Text.isHex_toList_hex 4 _, ?_⟩
  rw [message, String.toList_append, String.toList_append, String.toList_append]
  rfl

def lastByte : Interpreter Unit 4 where
  machine := {
    processor := { pc := 0, index := 3 }
    memory := ⟨#v[0xF1, 0x65, 0, 0], none⟩
    screen := .blank
    keypad := .released
    random := ⟨.replicate 624 0, 0⟩ }
  cache := none
  hooks := {}
  observer := ()
  stopRequested := false

theorem step_fails_iff_lastByte : lastByte.cache = none ∧
    (∀ word, lastByte.machine.HasWord lastByte.machine.processor.pc word →
      (lastByte.ask lastByte.machine.processor.pc word).1 = true) ∧
      lastByte.step.1 = .error ⟨.addressOutOfRange ⟨4, 4⟩, some 0, some 0xF165⟩ := by
  have there : lastByte.machine.HasWord 0 0xF165 := ⟨by decide, by decide, by decide⟩
  have fails : lastByte.machine.Fails (.addressOutOfRange ⟨4, 4⟩) (some 0xF165) :=
    .transferCutOff (i := .loadRegisters 1) there (by decide) (by decide) (by decide)
  refine ⟨rfl, fun _ _ => rfl, ?_⟩
  exact (step_fails_iff lastByte rfl (fun _ _ => rfl) _).1.2 ⟨rfl, _, fails, rfl, rfl⟩

end Interpreter

end Chip8
