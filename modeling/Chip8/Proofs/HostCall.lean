import Chip8.Proofs.MemoryCalls
import Chip8.Proofs.Request

/-! Host calls, check by check and effect by effect.

Here a call that a host makes between runs is written as the sequence of its checks and effects, in
which an effect before a refusal would stay. Each call makes its checks before its first effect, so
after a refusal nothing has changed; and the sequence comes to the same as the request. What loading
and writing refuse, and what they change otherwise, follows.
-/

set_option autoImplicit false

namespace Chip8

/-! ### The parts of host calls -/

abbrev HostProcedure := Procedure Refusal Emulator

namespace HostProcedure

open Procedure

def memory {α : Type} (call : MemoryCall memorySize α) : HostProcedure α :=
  within (·.machine.memory) (fun memory e => e.withMemory memory) .access call

def forget (start count : Int) : HostProcedure Unit :=
  change (·.onInterpreter (·.invalidate start count))

def log (level : Level) (message : String) : HostProcedure Unit :=
  change (·.log level message)

def content (path : String) : PathStatus → Except LoadError (List UInt8)
  | .found (.file data) => .ok data
  | .tooLong => .error (.pathTooLong (PathText.normal path))
  | _ => .error (.notFound (PathText.normal path))

def loadProgram (data : List UInt8) (name : String) : HostProcedure Unit := do
  check .load (if data.isEmpty then some (.empty name) else none)
  check .load (if maxProgramSize < data.length then some (.tooLarge name data.length) else none)
  memory (MemoryCall.writeRange programStart data)
  forget programStart data.length
  change ({ · with programName := name })
  log .debug s!"Loaded {data.length} bytes from {name} at ${Text.hex 3 programStart}"

/-- A request that is one effect. -/
def whole (request : Request) : HostProcedure Answer :=
  ExceptT.mk (·.perform request)

end HostProcedure

open Procedure HostProcedure in
/-- The checks and effects of a request. -/
def Request.procedure : Request → HostProcedure Answer
  | .load data name => do
    loadProgram data name
    return .done
  | .loadRom path status => do
    let data ← expect .load (content path status)
    loadProgram data (PathText.name path)
    log .info s!"Loaded ROM {PathText.name path}"
    return .done
  | .readByte address => do
    let b ← memory (MemoryCall.read address)
    return .byte b
  | .readBytes address count => do
    let data ← memory (MemoryCall.readRange address count)
    return .bytes data
  | .writeByte address value => do
    memory (MemoryCall.write address value)
    forget address 1
    return .done
  | .writeBytes address data => do
    memory (MemoryCall.writeRange address data)
    forget address data.length
    return .done
  | .disassemble address count => do
    check .access (if address < 0 then some ⟨address, memorySize⟩ else none)
    let data ← look (·.machine.memory.bytes.toList)
    return .lines ((Listing.words true address (data.drop address.toNat)).take count.toNat)
  | .pressKey name => do
    let k ← expect .key name.key
    change (·.onKeypad (·.press k))
    return .done
  | .releaseKey name => do
    let k ← expect .key name.key
    change (·.onKeypad (·.release k))
    return .done
  | .setFrequency frequency => do
    check .clock (if frequency.isNonpositive then some (.nonpositiveFrequency frequency) else none)
    change fun e => { e with clock := { e.clock with frequency } }
    return .done
  | .render scale => do
    let screen ← look (·.machine.screen)
    let picture ← expect .render (screen.render scale 255 0)
    return .picture picture
  | .run elapsed => do
    check .clock (if elapsed.isNegative then some (.negativeElapsed elapsed) else none)
    whole (.run elapsed)
  | request => whole request

namespace HostProcedure

open Procedure

variable {e : Emulator}

theorem made_memory {α : Type} (call : MemoryCall memorySize α) :
    made (memory call) e =
      ((call.made e.machine.memory).1.mapError .access,
        e.withMemory (call.made e.machine.memory).2) := rfl

theorem made_loadProgram (data : List UInt8) (name : String) :
    made (loadProgram data name) e =
      match e.loadProgram data name with
      | .error error => (.error (.load error), e)
      | .ok left => (.ok (), left) := by
  rw [loadProgram, Emulator.loadProgram]
  by_cases empty : data.isEmpty
  · rw [if_pos empty, if_pos empty]
    rfl
  · by_cases large : maxProgramSize < data.length
    · rw [if_neg empty, if_neg empty, if_pos large, if_pos large]
      rfl
    · -- The third check, of the range, never fails: what fits into a program fits behind its start.
      have stored : e.machine.memory.writeRange programStart data =
          .ok (e.machine.memory.store programStart data) := by
        refine Memory.writeRange_of_inside (.inl ?_)
        simp only [maxProgramSize, memorySize, programStart] at large ⊢
        omega
      rw [if_neg empty, if_neg empty, if_neg large, if_neg large]
      simp only [check, made_bind, made_pure, made_memory, MemoryCall.made_writeRange, stored]
      rfl

/-- The checks and effects of a request come to what serving it comes to. -/
theorem made_procedure (request : Request) (e : Emulator) :
    request.procedure.made e = e.perform request := by
  cases request with
  | load data name =>
    simp only [Request.procedure, made_bind, made_loadProgram, Emulator.perform]
    cases e.loadProgram data name <;> rfl
  | loadRom path status =>
    cases status with
    | found node =>
      cases node with
      | file data =>
        simp only [Request.procedure, content, expect, made_bind, made_pure, made_loadProgram,
          Emulator.perform, Emulator.loadRom]
        cases e.loadProgram data (PathText.name path) <;> rfl
      | directory | sink | endless => rfl
    | absent | noParent | throughFile | tooLong | holdsNul => rfl
  | readByte address =>
    simp only [Request.procedure, made_bind, made_memory, MemoryCall.made_read, Emulator.perform,
      Emulator.readByte]
    cases e.machine.memory.read address <;> rfl
  | readBytes address count =>
    simp only [Request.procedure, made_bind, made_memory, MemoryCall.made_readRange, Emulator.perform,
      Emulator.readBytes]
    cases e.machine.memory.readRange address count <;> rfl
  | writeByte address value =>
    simp only [Request.procedure, made_bind, made_memory, MemoryCall.made_write, Emulator.perform,
      Emulator.writeByte, Emulator.pokeByte]
    cases e.machine.memory.write address value <;> rfl
  | writeBytes address data =>
    simp only [Request.procedure, made_bind, made_memory, MemoryCall.made_writeRange,
      Emulator.perform, Emulator.writeBytes]
    cases e.machine.memory.writeRange address data <;> rfl
  | disassemble address count =>
    simp only [Request.procedure, Emulator.perform, Emulator.disassemble]
    by_cases negative : address < 0
    · rw [if_pos negative, if_pos negative]
      rfl
    · rw [if_neg negative, if_neg negative]
      rfl
  | pressKey name =>
    simp only [Request.procedure, Emulator.perform, Emulator.pressKey]
    cases name.key <;> rfl
  | releaseKey name =>
    simp only [Request.procedure, Emulator.perform, Emulator.releaseKey]
    cases name.key <;> rfl
  | setFrequency frequency =>
    simp only [Request.procedure, Emulator.perform, Emulator.setFrequency]
    by_cases nonpositive : frequency.isNonpositive
    · have refused : e.clock.setFrequency frequency = .error (.nonpositiveFrequency frequency) :=
        if_pos nonpositive
      rw [if_pos nonpositive, refused]
      rfl
    · have set : e.clock.setFrequency frequency = .ok { e.clock with frequency } :=
        if_neg nonpositive
      rw [if_neg nonpositive, set]
      rfl
  | render scale =>
    simp only [Request.procedure, Emulator.perform, Emulator.render, made_bind, made_look]
    cases e.machine.screen.render scale 255 0 <;> rfl
  | run elapsed =>
    simp only [Request.procedure]
    by_cases negative : elapsed.isNegative
    · have refused : e.clock.advance elapsed = .error (.negativeElapsed elapsed) := if_pos negative
      rw [if_pos negative, Emulator.perform, Emulator.run, refused]
      rfl
    · rw [if_neg negative]
      rfl
  | _ => rfl

/-! ### Checks come first -/

theorem atomic_memory {α : Type} {call : MemoryCall memorySize α} (atomic : Atomic call) :
    Atomic (memory call) :=
  atomic.within fun _ => rfl

theorem atomic_loadProgram (data : List UInt8) (name : String) :
    Atomic (loadProgram data name) := by
  refine (looks_check _ _).bind fun _ => (looks_check _ _).bind fun _ => ?_
  refine (atomic_memory (MemoryCall.atomic_writeRange _ _)).bind fun _ => ?_
  refine (certain_change _).bind fun _ => (certain_change _).bind fun _ => ?_
  exact certain_change _

end HostProcedure

/-! ### Host calls -/

/-- The calls of a host between runs that may be refused, and a run for less than no time. -/
inductive HostCall : Request → Prop where
  | load (data : List UInt8) (name : String) : HostCall (.load data name)
  | loadRom (path : String) (status : PathStatus) : HostCall (.loadRom path status)
  | readByte (address : Int) : HostCall (.readByte address)
  | readBytes (address count : Int) : HostCall (.readBytes address count)
  | writeByte (address value : Int) : HostCall (.writeByte address value)
  | writeBytes (address : Int) (data : List UInt8) : HostCall (.writeBytes address data)
  | disassemble (address count : Int) : HostCall (.disassemble address count)
  | pressKey (name : KeyName) : HostCall (.pressKey name)
  | releaseKey (name : KeyName) : HostCall (.releaseKey name)
  | run (elapsed : Quantity) (negative : elapsed.isNegative = true) : HostCall (.run elapsed)
  | setFrequency (frequency : Quantity) : HostCall (.setFrequency frequency)
  | render (scale : Int) : HostCall (.render scale)

open Procedure HostProcedure in
theorem HostCall.atomic {request : Request} (call : HostCall request) :
    Atomic request.procedure := by
  cases call with
  | load data name => exact (atomic_loadProgram data name).bind fun _ => certain_pure _
  | loadRom path status =>
    refine (looks_expect _ _).bind fun data => (atomic_loadProgram data _).bind fun _ => ?_
    exact (certain_change _).bind fun _ => certain_pure _
  | readByte address =>
    exact (atomic_memory (MemoryCall.atomic_read _)).bind fun b => certain_pure _
  | readBytes address count =>
    exact (atomic_memory (MemoryCall.atomic_readRange _ _)).bind fun data => certain_pure _
  | writeByte address value =>
    refine (atomic_memory (MemoryCall.atomic_write _ _)).bind fun _ => ?_
    exact (certain_change _).bind fun _ => certain_pure _
  | writeBytes address data =>
    refine (atomic_memory (MemoryCall.atomic_writeRange _ _)).bind fun _ => ?_
    exact (certain_change _).bind fun _ => certain_pure _
  | disassemble address count =>
    refine (looks_check _ _).bind fun _ => Certain.atomic ?_
    exact (certain_look _).bind fun data => certain_pure _
  | pressKey name | releaseKey name =>
    refine (looks_expect _ _).bind fun k => Certain.atomic ?_
    exact (certain_change _).bind fun _ => certain_pure _
  | run elapsed negative =>
    -- The check refuses, so that the run behind it does not matter.
    intro e refusal left refused
    rw [Request.procedure, if_pos negative] at refused
    cases refused
    rfl
  | setFrequency frequency =>
    refine (looks_check _ _).bind fun _ => Certain.atomic ?_
    exact (certain_change _).bind fun _ => certain_pure _
  | render scale =>
    refine (looks_look _).bind fun screen => (looks_expect _ _).bind fun picture => ?_
    exact (certain_pure _).atomic

/-! ### What writing changes -/

namespace Emulator

structure Wrote (e left : Emulator) (start : Int) (data : List UInt8) : Prop where
  named : ∀ (k : Nat) (b : UInt8), data[k]? = some b →
    left.machine.memory.byteAt (start + k).toNat = b
  others : ∀ a : Nat, (a : Int) < start ∨ start + data.length ≤ a →
    left.machine.memory.byteAt a = e.machine.memory.byteAt a
  tally : left.machine.memory.tally = e.machine.memory.tally.map (.write start.toNat data.length)
  cache : left.interpreter.cache = e.interpreter.cache.map (·.forget start data.length)
  rest : left = (e.withMemory left.machine.memory).onInterpreter fun i =>
    { i with cache := left.interpreter.cache }

/-- A request is refused if something is against it, and then changes nothing; otherwise it writes
bytes into an emulator that is like the one before. -/
structure WritesUnless (e : Emulator) (request : Request) (against : Prop) (like : Emulator)
    (start : Int) (data : List UInt8) : Prop where
  refused : against → ∃ refusal, e.perform request = (.error refusal, e)
  served : ¬ against → ∃ left, e.perform request = (.ok .done, left) ∧ Wrote like left start data

variable {e : Emulator}

def written (e : Emulator) (start : Int) (data : List UInt8) : Emulator :=
  (e.withMemory (e.machine.memory.store start.toNat data)).onInterpreter
    (·.invalidate start data.length)

theorem wrote_written {start : Int} {data : List UInt8}
    (inside : (0 ≤ start ∧ start + data.length ≤ memorySize) ∨ data = []) :
    Wrote e (e.written start data) start data where
  named k b there := by
    have within := (List.getElem?_eq_some_iff.1 there).1
    have nonempty : data ≠ [] := List.ne_nil_of_length_pos (by omega)
    obtain ⟨nonneg, fits⟩ := inside.resolve_right nonempty
    have place : (start + k).toNat < memorySize := by omega
    refine (Memory.byteAt_store _ _ _ place).trans ?_
    rw [if_pos (by omega), show (start + k).toNat - start.toNat = k by omega, there,
      Option.getD_some]
  others a outside := by
    refine Memory.byteAt_store_of_ne _ _ _ ?_
    rcases inside with ⟨nonneg, fits⟩ | rfl
    · omega
    · rw [List.length_nil]
      omega
  tally := rfl
  cache := rfl
  rest := rfl

theorem writesUnless_writeBytes (e : Emulator) (address : Int) (data : List UInt8) :
    e.WritesUnless (.writeBytes address data)
      (data ≠ [] ∧ ¬ (0 ≤ address ∧ address + data.length - 1 ≤ 4095)) e address data where
  refused := by
    rintro ⟨nonempty, outside⟩
    cases write : e.machine.memory.writeRange address data with
    | ok memory =>
      obtain ⟨nonneg, fits⟩ := (Memory.writeRange_inside write).resolve_right nonempty
      rw [memorySize] at fits
      omega
    | error access =>
      refine ⟨.access access, ?_⟩
      rw [perform, writeBytes, write]
      rfl
  served free := by
    have inside : (0 ≤ address ∧ address + data.length ≤ memorySize) ∨ data = [] := by
      rw [memorySize]
      by_cases empty : data = []
      · exact .inr empty
      · have := not_and.1 free empty
        omega
    refine ⟨e.written address data, ?_, wrote_written inside⟩
    rw [perform, writeBytes, Memory.writeRange_of_inside inside]
    rfl

/-- A byte is written like a range of one byte. -/
theorem writesUnless_writeByte (e : Emulator) (address value : Int) :
    e.WritesUnless (.writeByte address value) (¬ (0 ≤ address ∧ address ≤ 4095)) e address
      [UInt8.ofInt value] := by
  have same : e.perform (.writeByte address value) =
      e.perform (.writeBytes address [UInt8.ofInt value]) := by
    rw [perform, writeByte_eq_writeBytes, perform]
  have range := writesUnless_writeBytes e address [UInt8.ofInt value]
  constructor
  · intro outside
    rw [same]
    refine range.refused ⟨List.cons_ne_nil _ _, ?_⟩
    rw [List.length_singleton]
    omega
  · intro free
    rw [same]
    refine range.served fun against => against.2 ?_
    rw [List.length_singleton]
    omega

def named (e : Emulator) (name : String) (size : Nat) : Emulator :=
  { e with programName := name }.log .debug
    s!"Loaded {size} bytes from {name} at ${Text.hex 3 programStart}"

theorem writesUnless_load (e : Emulator) (data : List UInt8) (name : String) :
    e.WritesUnless (.load data name) (data = [] ∨ 3584 < data.length) (e.named name data.length)
      0x200 data where
  refused := by
    rintro (rfl | large)
    · exact ⟨.load (.empty name), rfl⟩
    · have nonempty : ¬ data.isEmpty := by
        rw [List.isEmpty_iff]
        exact List.ne_nil_of_length_pos (by omega)
      have beyond : maxProgramSize < data.length := large
      refine ⟨.load (.tooLarge name data.length), ?_⟩
      have fails : e.loadProgram data name = .error (.tooLarge name data.length) := by
        rw [loadProgram, if_neg nonempty, if_pos beyond]
      rw [perform, fails]
      rfl
  served free := by
    obtain ⟨nonempty, small⟩ := not_or.1 free
    have fits : ¬ maxProgramSize < data.length := small
    have loaded : e.loadProgram data name =
        .ok ((e.named name data.length).written programStart data) := by
      rw [loadProgram, if_neg (mt List.isEmpty_iff.1 nonempty), if_neg fits]
      rfl
    refine ⟨(e.named name data.length).written programStart data, ?_, wrote_written (.inl ?_)⟩
    · rw [perform, loaded]
      rfl
    · rw [memorySize, programStart]
      omega

/-- A refused call of a host changes nothing: its checks come before its effects. Loading a program
and writing to memory are refused exactly if the data or the range does not fit, and otherwise write
the bytes that they name and no others. -/
theorem refused_changes_nothing (e : Emulator) :
    (∀ request : Request, request.procedure.made e = e.perform request) ∧
    (∀ request, HostCall request → ∀ refusal left,
      e.perform request = (.error refusal, left) → left = e) ∧
    (∀ data name, e.WritesUnless (.load data name) (data = [] ∨ 3584 < data.length)
      (e.named name data.length) 0x200 data) ∧
    (∀ address value, e.WritesUnless (.writeByte address value)
      (¬ (0 ≤ address ∧ address ≤ 4095)) e address [UInt8.ofInt value]) ∧
    ∀ address data, e.WritesUnless (.writeBytes address data)
      (data ≠ [] ∧ ¬ (0 ≤ address ∧ address + data.length - 1 ≤ 4095)) e address data := by
  refine ⟨fun request => HostProcedure.made_procedure request e, fun request call refusal left => ?_,
    writesUnless_load e, writesUnless_writeByte e, writesUnless_writeBytes e⟩
  rw [← HostProcedure.made_procedure]
  exact call.atomic e refusal left

/-- A run for less than no time and a range with its end outside memory are refused in a session;
the last byte of memory is written as the low eight bits of a value. -/
theorem refused_changes_nothing_session :
    session.1.perform (.run (.whole (-5))) =
        (.error (.clock (.negativeElapsed (.whole (-5)))), session.1) ∧
      (∃ refusal, session.1.perform (.writeBytes 0xFFF [1, 2]) = (.error refusal, session.1)) ∧
      ∃ left, session.1.perform (.writeByte 0xFFF 0x1FF) = (.ok .done, left) ∧
        left.machine.memory.byteAt 0xFFF = 0xFF ∧
        left.machine.memory.byteAt 0x200 = session.1.machine.memory.byteAt 0x200 := by
  obtain ⟨-, kept, -, byte, range⟩ := refused_changes_nothing session.1
  -- The outcome is found for any emulator, so that none has to be run for it.
  have refused (e : Emulator) : e.perform (.run (.whole (-5))) =
      (.error (.clock (.negativeElapsed (.whole (-5)))), (e.perform (.run (.whole (-5)))).2) := rfl
  have same := kept _ (.run (.whole (-5)) rfl) _ _ (refused session.1)
  have beyond := (range 0xFFF [1, 2]).refused ⟨List.cons_ne_nil _ _, by simp⟩
  refine ⟨(refused session.1).trans (by rw [same]), beyond, ?_⟩
  obtain ⟨left, served, wrote⟩ := (byte 0xFFF 0x1FF).served (by simp)
  exact ⟨left, served, wrote.named 0 0xFF (by decide), wrote.others 0x200 (by decide)⟩

end Emulator

end Chip8
