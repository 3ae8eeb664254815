import Chip8.Proofs.InstructionRecord
import Chip8.Proofs.MemoryCalls
import Chip8.Proofs.Step

/-! Steps, check by check and effect by effect.

Here a step is written as the sequence of its checks and effects, on the fields of the record that a
word is decoded to. What was done before a refusal would stay, and each call of a hook is written down
with the machine that it finds. The sequence comes to the same as a step of the interpreter.
-/

set_option autoImplicit false

namespace Chip8

variable {σ : Type} {size : Nat}

/-! ### Calls of hooks -/

/-- A call of a hook; a hook that is told of a store answers whether to go on. -/
inductive HookCall where
  | asked (pc : Int) (word : Word)
  | told (store : Store) (go : Bool)
  deriving DecidableEq, Repr

structure Sighting (size : Nat) where
  call : HookCall
  machine : Machine size

/-- An interpreter and the calls of hooks so far, oldest first. -/
structure Logged (σ : Type) (size : Nat) where
  interpreter : Interpreter σ size
  log : List (Sighting size)

namespace Logged

def machine (s : Logged σ size) : Machine size :=
  s.interpreter.machine

def processor (s : Logged σ size) : Processor :=
  s.machine.processor

def onInterpreter (s : Logged σ size) (effect : Interpreter σ size → Interpreter σ size) :
    Logged σ size :=
  { s with interpreter := effect s.interpreter }

def onMachine (s : Logged σ size) (effect : Machine size → Machine size) : Logged σ size :=
  s.onInterpreter fun i => { i with machine := effect i.machine }

def onProcessor (s : Logged σ size) (effect : Processor → Processor) : Logged σ size :=
  s.onInterpreter (·.onProcessor effect)

def withMemory (memory : Memory size) (s : Logged σ size) : Logged σ size :=
  s.onMachine ({ · with memory })

def ask (pc : Int) (word : Word) (s : Logged σ size) : Bool × Logged σ size :=
  match s.interpreter.hooks.onInstruction with
  | none => (true, s)
  | some hook =>
    let (go, observer) := hook s.interpreter.observer pc word
    (go, ⟨{ s.interpreter with observer }, s.log ++ [⟨.asked pc word, s.machine⟩]⟩)

def tell (store : Store) (s : Logged σ size) : Bool × Logged σ size :=
  match s.interpreter.hooks.onStore with
  | none => (true, s)
  | some hook =>
    let (go, observer) := hook s.interpreter.observer store
    (go, ⟨{ s.interpreter with observer }, s.log ++ [⟨.told store go, s.machine⟩]⟩)

def forgot (s : Logged σ size) (stores : List Store) : Logged σ size :=
  s.onInterpreter fun i => { i with
    cache := i.cache.map fun cache =>
      stores.foldl (fun cache store => cache.forget store.address 1) cache }

def draw (x y : UInt8) (bits : List Bool) (s : Logged σ size) : Bool × Logged σ size :=
  let (collision, screen) := s.machine.screen.draw x.toNat y.toNat bits
  (collision, s.onMachine ({ · with screen }))

def drawByte (s : Logged σ size) : UInt8 × Logged σ size :=
  let (b, random) := s.machine.random.byte
  (b, s.onMachine ({ · with random }))

end Logged

/-! ### Procedures -/

abbrev StepProcedure (σ : Type) (size : Nat) := Procedure Cause (Logged σ size)

namespace StepProcedure

open Procedure

def memory {α : Type} (call : MemoryCall size α) : StepProcedure σ size α :=
  within (·.machine.memory) Logged.withMemory .addressOutOfRange call

def processor (effect : Processor → Processor) : StepProcedure σ size Unit :=
  change (·.onProcessor effect)

def skipIf (test : Logged σ size → Bool) : StepProcedure σ size Unit := do
  if ← look test then processor fun p => { p with pc := p.pc + 2 }

/-- Two registers are read before the flag is set, and the flag before the result. -/
def arithmetic (flag : Processor → Bool) (target : Register) (result : Processor → UInt8) :
    StepProcedure σ size Unit := do
  let p ← look (·.processor)
  processor (·.setFlag (flag p))
  processor (·.set target (result p))

def tellEach (start : Nat) : List UInt8 → StepProcedure σ size Unit
  | [] => pure ()
  | b :: data => do
    let go ← act (Logged.tell ⟨start, b⟩)
    if !go then change (·.onInterpreter ({ · with stopRequested := true }))
    tellEach (start + 1) data

def storeAtIndex (data : Processor → List UInt8) : StepProcedure σ size Unit := do
  let p ← look (·.processor)
  -- The hook is told when all bytes are stored.
  memory (MemoryCall.writeRange p.index.toNat (data p))
  change (·.forgot (Store.range p.index.toNat (data p)))
  tellEach p.index.toNat (data p)

end StepProcedure

open Procedure StepProcedure in
/-- The checks and effects of an instruction, on the fields of its record. -/
def Record.execute (r : Record) : StepProcedure σ size Unit :=
  match r.op with
  | .machineCall => pure ()
  | .clear => change (·.onMachine fun m => { m with screen := m.screen.clear })
  | .ret => do
    match ← look (·.processor.stack) with
    | [] => refuse .stackUnderflow
    | pc :: stack => do
      processor ({ · with stack })
      processor ({ · with pc })
  | .jump => processor ({ · with pc := r.addr.val })
  | .call => do
    processor fun p => { p with stack := p.pc :: p.stack }
    processor ({ · with pc := r.addr.val })
  | .jumpFrom => processor fun p => { p with pc := r.addr.val + (p.get .first).toNat }
  | .skipIfByte => skipIf fun s => s.processor.get r.x == r.kk
  | .skipUnlessByte => skipIf fun s => s.processor.get r.x != r.kk
  | .skipIfSame => skipIf fun s => s.processor.get r.x == s.processor.get r.y
  | .skipUnlessSame => skipIf fun s => s.processor.get r.x != s.processor.get r.y
  | .skipIfDown => skipIf fun s => s.machine.keypad.isDown (s.processor.get r.x).toNat
  | .skipIfUp => skipIf fun s => !(s.machine.keypad.isDown (s.processor.get r.x).toNat)
  | .setByte => processor (·.set r.x r.kk)
  | .addByte => processor fun p => p.set r.x (p.get r.x + r.kk)
  | .copy => processor fun p => p.set r.x (p.get r.y)
  | .or => processor fun p => p.set r.x (p.get r.x ||| p.get r.y)
  | .and => processor fun p => p.set r.x (p.get r.x &&& p.get r.y)
  | .xor => processor fun p => p.set r.x (p.get r.x ^^^ p.get r.y)
  | .add =>
    arithmetic (fun p => 255 < (p.get r.x).toNat + (p.get r.y).toNat) r.x fun p =>
      p.get r.x + p.get r.y
  | .subtract =>
    arithmetic (fun p => p.get r.y < p.get r.x) r.x fun p => p.get r.x - p.get r.y
  | .shiftRight =>
    arithmetic (fun p => (p.get r.x).toNat % 2 = 1) r.x fun p => p.get r.x >>> 1
  | .subtractFrom =>
    arithmetic (fun p => p.get r.x < p.get r.y) r.y fun p => p.get r.y - p.get r.x
  | .shiftLeft =>
    arithmetic (fun p => 128 ≤ (p.get r.x).toNat) r.x fun p => p.get r.x <<< 1
  | .setIndex => processor ({ · with index := UInt16.ofNat r.addr.val })
  | .addIndex => do
    let p ← look (·.processor)
    let sum := p.index.toNat + (p.get r.x).toNat
    processor (·.setFlag (65535 < sum))
    processor ({ · with index := UInt16.ofNat sum })
  | .indexGlyph =>
    processor fun p => { p with index := UInt16.ofNat ((p.get r.x).toNat * glyphSize) }
  | .random => do
    let b ← act Logged.drawByte
    processor (·.set r.x (b &&& r.kk))
  | .draw => do
    let index ← look (·.processor.index)
    -- All rows are read before the first pixel is drawn.
    let rows ← memory (MemoryCall.readRange index.toNat r.n.val)
    let p ← look (·.processor)
    let collision ← act (Logged.draw (p.get r.x) (p.get r.y) (rows.flatMap Screen.rowBits))
    processor (·.setFlag collision)
  | .readDelay => processor fun p => p.set r.x p.delay
  | .setDelay => processor fun p => { p with delay := p.get r.x }
  | .setSound => processor fun p => { p with sound := p.get r.x }
  | .awaitKey => do
    processor ({ · with waiting := true })
    processor ({ · with keyRegister := r.x })
  | .storeDecimal => storeAtIndex (·.decimalDigits r.x)
  | .storeRegisters => storeAtIndex (·.firstRegisters r.x)
  | .loadRegisters => do
    let index ← look (·.processor.index)
    let data ← memory (MemoryCall.readRange index.toNat (r.x.val + 1))
    processor (·.setFirst data)

/-! ### What instructions come to -/

namespace Logged

variable {s : Logged σ size}

def told (s : Logged σ size) (store : Store) : Logged σ size :=
  let (go, left) := s.tell store
  if go then left else left.onInterpreter ({ · with stopRequested := true })

def noted (s : Logged σ size) (stores : List Store) : Logged σ size :=
  stores.foldl told (s.forgot stores)

def concluded (s : Logged σ size) : Effect size → Except Cause Unit × Logged σ size
  | .error cause => (.error cause, s)
  | .ok (machine, stores) => (.ok (), (s.onMachine fun _ => machine).noted stores)

@[simp] theorem noted_nil (s : Logged σ size) : s.noted [] = s := by
  obtain ⟨⟨machine, cache, hooks, observer, stopRequested⟩, log⟩ := s
  cases cache <;> rfl

end Logged

namespace StepProcedure

open Procedure

variable {s : Logged σ size}

theorem made_tellEach (data : List UInt8) (start : Nat) (s : Logged σ size) :
    made (tellEach start data) s = (.ok (), (Store.range start data).foldl Logged.told s) := by
  induction data generalizing start s with
  | nil => rfl
  | cons b data ih =>
    rw [tellEach, made_bind, made_act, Store.range, List.foldl_cons, Logged.told]
    cases s.tell ⟨start, b⟩ with
    | mk go left =>
      cases go with
      | true => exact ih (start + 1) left
      | false => exact ih (start + 1) _

theorem made_skipIf (test : Logged σ size → Bool) (s : Logged σ size) :
    made (skipIf test) s = (.ok (), s.onProcessor (·.skipIf (test s))) := by
  rw [skipIf, made_bind, made_look]
  cases test s <;> rfl

theorem made_memory {α : Type} (call : MemoryCall size α) (s : Logged σ size) :
    made (memory call) s =
      ((call.made s.machine.memory).1.mapError .addressOutOfRange,
        s.withMemory (call.made s.machine.memory).2) := rfl

theorem made_storeAtIndex (data : Processor → List UInt8) (s : Logged σ size) :
    made (storeAtIndex data) s = s.concluded (s.machine.storeAtIndex (data s.processor)) := by
  obtain ⟨⟨⟨p, memory, screen, keypad, random⟩, cache, hooks, observer, stopRequested⟩, log⟩ := s
  simp only [storeAtIndex, made_bind, made_look, made_memory, MemoryCall.made_writeRange,
    Machine.storeAtIndex, Logged.machine, Logged.processor]
  -- If the bytes are refused, the cache and the hook are not reached.
  cases memory.writeRange p.index.toNat (data p) with
  | error access => rfl
  | ok memory =>
    simp only [Except.map, MemoryCall.settled, Except.mapError, made_change, made_tellEach]
    rfl

end StepProcedure

open Procedure StepProcedure in
theorem Record.made_execute (r : Record) (s : Logged σ size) :
    made r.execute s = s.concluded (s.machine.execute r.typed) := by
  obtain ⟨op, opcode, addr, x, y, kk, n⟩ := r
  obtain ⟨⟨⟨p, memory, screen, keypad, random⟩, cache, hooks, observer, stopRequested⟩, log⟩ := s
  cases op with
  | storeDecimal => exact made_storeAtIndex _ _
  | storeRegisters => exact made_storeAtIndex _ _
  | draw =>
    simp only [execute, made_bind, made_look, made_memory, MemoryCall.made_readRange, typed,
      Machine.execute, Machine.draw, Logged.machine, Logged.processor]
    cases memory.readRange p.index.toNat n.val with
    | error access => rfl
    | ok result => exact congrArg (Prod.mk _) (Logged.noted_nil _).symm
  | loadRegisters =>
    simp only [execute, made_bind, made_look, made_memory, MemoryCall.made_readRange, typed,
      Machine.execute, Machine.loadRegisters, Logged.machine, Logged.processor]
    cases memory.readRange p.index.toNat (x.val + 1) with
    | error access => rfl
    | ok result => exact congrArg (Prod.mk _) (Logged.noted_nil _).symm
  | ret =>
    simp only [execute, made_bind, made_look, typed, Machine.execute, Machine.ret, Logged.machine,
      Logged.processor]
    cases p.stack with
    | nil => rfl
    | cons pc stack => exact congrArg (Prod.mk _) (Logged.noted_nil _).symm
  | random => exact congrArg (Prod.mk _) (Logged.noted_nil _).symm
  | skipIfByte | skipUnlessByte | skipIfSame | skipUnlessSame | skipIfDown | skipIfUp =>
    simp only [Machine.execute, typed, Machine.onProcessor, Logged.concluded, Logged.noted_nil]
    exact made_skipIf _ _
  | _ =>
    -- The others are refused nothing and store nothing.
    simp only [Machine.execute, typed, Machine.onProcessor, Logged.concluded, Logged.noted_nil]
    rfl

/-! ### Checks come first -/

namespace StepProcedure

open Procedure

theorem atomic_memory {α : Type} {call : MemoryCall size α} (atomic : Atomic call) :
    Atomic (memory call : StepProcedure σ size α) :=
  atomic.within fun _ => rfl

theorem certain_skipIf (test : Logged σ size → Bool) : Certain (skipIf test) := by
  refine (certain_look _).bind fun passes => ?_
  cases passes with
  | true => exact certain_change _
  | false => exact certain_pure _

theorem certain_arithmetic (flag : Processor → Bool) (target : Register)
    (result : Processor → UInt8) :
    Certain (arithmetic flag target result : StepProcedure σ size Unit) :=
  (certain_look _).bind fun _ => (certain_change _).bind fun _ => certain_change _

theorem certain_tellEach (data : List UInt8) (start : Nat) :
    Certain (tellEach start data : StepProcedure σ size Unit) :=
  fun s => ⟨(), _, made_tellEach data start s⟩

/-- All bytes are checked before the first of them is stored, and the hook is told behind that. -/
theorem atomic_storeAtIndex (data : Processor → List UInt8) :
    Atomic (storeAtIndex data : StepProcedure σ size Unit) := by
  refine (looks_look _).bind fun p => ?_
  refine (atomic_memory (MemoryCall.atomic_writeRange _ _)).bind fun _ => ?_
  exact (certain_change _).bind fun _ => certain_tellEach _ _

end StepProcedure

open Procedure StepProcedure in
/-- An instruction that is refused leaves everything as it was. -/
theorem Record.atomic_execute (r : Record) : Atomic (r.execute : StepProcedure σ size Unit) := by
  obtain ⟨op, opcode, addr, x, y, kk, n⟩ := r
  cases op with
  | ret =>
    refine (looks_look _).bind fun stack => ?_
    cases stack with
    | nil => exact (looks_refuse _).atomic
    | cons pc stack => exact ((certain_change _).bind fun _ => certain_change _).atomic
  | draw =>
    refine (looks_look _).bind fun index => ?_
    refine (atomic_memory (MemoryCall.atomic_readRange _ _)).bind fun rows => ?_
    refine (certain_look _).bind fun p => (certain_act _).bind fun collision => ?_
    exact certain_change _
  | storeDecimal | storeRegisters => exact atomic_storeAtIndex _
  | loadRegisters =>
    refine (looks_look _).bind fun index => ?_
    refine (atomic_memory (MemoryCall.atomic_readRange _ _)).bind fun data => ?_
    exact certain_change _
  | machineCall => exact (certain_pure ()).atomic
  | skipIfByte | skipUnlessByte | skipIfSame | skipUnlessSame | skipIfDown | skipIfUp =>
    exact (certain_skipIf _).atomic
  | add | subtract | shiftRight | subtractFrom | shiftLeft =>
    exact (certain_arithmetic _ _ _).atomic
  | call | awaitKey => exact ((certain_change _).bind fun _ => certain_change _).atomic
  | addIndex =>
    refine Certain.atomic ((certain_look _).bind fun p => ?_)
    exact (certain_change _).bind fun _ => certain_change _
  | random => exact ((certain_act _).bind fun b => certain_change _).atomic
  | _ => exact (certain_change _).atomic

/-! ### Steps -/

def Decoded.record (d : Decoded) : Record :=
  d.instruction.record d.word

namespace StepProcedure

open Procedure

/-- The record at an address, from the cache or from memory. -/
def fetch (pc : Int) : StepProcedure σ size Record := do
  match ← look fun s => s.interpreter.cache.bind (·[pc]?) with
  | some decoded => return decoded.record
  | none =>
    let high ← memory (MemoryCall.read pc)
    let low ← memory (MemoryCall.read (pc + 1))
    let word := Word.ofBytes high low
    match Record.decode word with
    | none => refuse (.unknownOpcode word.toNat)
    | some r => do
      change (·.onInterpreter fun i => { i with
        cache := i.cache.map (·.insert pc ⟨r.opcode, r.typed⟩) })
      return r

def poll : Procedure Fault (Logged σ size) Unit := do
  match ← look (·.machine.keypad.first?) with
  | none => return
  | some k => do
    change (·.onProcessor fun p => p.set p.keyRegister (UInt8.ofNat k.val))
    change (·.onProcessor ({ · with waiting := false }))

def located {α : Type} (pc : Int) (opcode : Option Word) (p : StepProcedure σ size α) :
    Procedure Fault (Logged σ size) α :=
  p.retold fun cause => (Fault.ofCause cause).locate pc (opcode.map fun w => (w.toNat : Int))

def step : Procedure Fault (Logged σ size) Bool := do
  if ← look (·.processor.waiting) then
    poll
    return true
  else
    let pc ← look (·.processor.pc)
    let r ← located pc none (fetch pc)
    if ← act (Logged.ask pc r.opcode) then
      change (·.onProcessor ({ · with pc := pc + 2 }))
      located pc (some r.opcode) r.execute
      return true
    else return false

theorem made_fetch (pc : Int) (s : Logged σ size) :
    made (fetch pc) s =
      ((s.interpreter.fetch pc).1.map Decoded.record, ⟨(s.interpreter.fetch pc).2, s.log⟩) := by
  rw [fetch, made_bind, made_look]
  cases look : s.interpreter.cache.bind (·[pc]?) with
  | some decoded =>
    rw [Interpreter.fetch_of_hit look]
    rfl
  | none =>
    rw [Interpreter.fetch_of_miss look]
    obtain ⟨⟨⟨p, memory, screen, keypad, random⟩, cache, hooks, observer, stopRequested⟩, log⟩ := s
    simp only [made_bind, made_memory, MemoryCall.made_read, Logged.machine, Machine.decoded,
      Machine.readWord]
    cases memory.read pc with
    | error access => rfl
    | ok high =>
      simp only [MemoryCall.settled, Except.mapError, Logged.withMemory, Logged.onMachine,
        Logged.onInterpreter]
      cases high.2.read (pc + 1) with
      | error access => rfl
      | ok low =>
        simp only [Record.typed_decode]
        cases known : Record.decode (Word.ofBytes high.1 low.1) with
        | none => rfl
        | some r =>
          obtain ⟨op, -, rfl⟩ := Option.map_eq_some_iff.1 known
          have same := Record.record_typed op (Word.ofBytes high.1 low.1)
          exact congrArg (fun r => (Except.ok r, _)) same.symm

theorem made_poll (s : Logged σ size) : made poll s = (.ok (), s.onMachine (·.poll)) := by
  obtain ⟨⟨⟨p, memory, screen, keypad, random⟩, cache, hooks, observer, stopRequested⟩, log⟩ := s
  rw [poll, made_bind, made_look]
  simp only [Logged.machine, Logged.onMachine, Logged.onInterpreter, Machine.poll]
  cases keypad.first? <;> rfl

end StepProcedure

namespace Logged

open Procedure StepProcedure

variable {s left : Logged σ size} {result : Except Fault Bool}

def passed (s : Logged σ size) (pc : Int) : Logged σ size :=
  s.onInterpreter (·.passed pc)

inductive Stepped (s : Logged σ size) : Except Fault Bool → Logged σ size → Prop where
  | polled : s.processor.waiting = true → Stepped s (.ok true) (s.onMachine (·.poll))
  | unfetched {cause : Cause} {fetched : Logged σ size} :
      s.processor.waiting = false →
      made (fetch s.processor.pc) s = (.error cause, fetched) →
      Stepped s (.error ((Fault.ofCause cause).locate s.processor.pc none)) fetched
  | vetoed {r : Record} {fetched asked : Logged σ size} :
      s.processor.waiting = false →
      made (fetch s.processor.pc) s = (.ok r, fetched) →
      fetched.ask s.processor.pc r.opcode = (false, asked) →
      Stepped s (.ok false) asked
  | failed {r : Record} {fetched asked left : Logged σ size} {cause : Cause} :
      s.processor.waiting = false →
      made (fetch s.processor.pc) s = (.ok r, fetched) →
      fetched.ask s.processor.pc r.opcode = (true, asked) →
      made r.execute (asked.passed s.processor.pc) = (.error cause, left) →
      Stepped s
        (.error ((Fault.ofCause cause).locate s.processor.pc (some r.opcode.toNat))) left
  | executed {r : Record} {fetched asked left : Logged σ size} :
      s.processor.waiting = false →
      made (fetch s.processor.pc) s = (.ok r, fetched) →
      fetched.ask s.processor.pc r.opcode = (true, asked) →
      made r.execute (asked.passed s.processor.pc) = (.ok (), left) →
      Stepped s (.ok true) left

theorem made_located {α : Type} (pc : Int) (opcode : Option Word) (p : StepProcedure σ size α)
    (s : Logged σ size) :
    made (located pc opcode p) s =
      ((p.made s).1.mapError fun cause =>
          (Fault.ofCause cause).locate pc (opcode.map fun w => (w.toNat : Int)),
        (p.made s).2) := rfl

theorem stepped (made : made step s = (result, left)) : s.Stepped result left := by
  rw [step, made_bind, made_look] at made
  cases waiting : s.processor.waiting with
  | true =>
    simp only [waiting, if_true, made_bind, made_poll, made_pure] at made
    cases made
    exact .polled waiting
  | false =>
    -- Fetching, asking and the instruction come in turn, and each may end the step.
    simp only [waiting, Bool.false_eq_true, if_false, made_bind, made_look, made_located] at made
    cases found : Procedure.made (fetch s.processor.pc) s with
    | mk word fetched =>
      cases word with
      | error cause =>
        simp only [found, Except.mapError] at made
        cases made
        exact .unfetched waiting found
      | ok r =>
        simp only [found, Except.mapError, made_act] at made
        cases asks : fetched.ask s.processor.pc r.opcode with
        | mk go asked =>
          cases go with
          | false =>
            simp only [asks, Bool.false_eq_true, if_false, made_pure] at made
            cases made
            exact .vetoed waiting found asks
          | true =>
            simp only [asks, if_true, made_bind, made_change, made_located, made_pure] at made
            have moved : asked.onProcessor ({ · with pc := s.processor.pc + 2 }) =
              asked.passed s.processor.pc := rfl
            rw [moved] at made
            cases done : Procedure.made r.execute (asked.passed s.processor.pc) with
            | mk ended left =>
              cases ended with
              | error cause =>
                simp only [done, Except.mapError] at made
                cases made
                exact .failed waiting found asks done
              | ok =>
                simp only [done, Except.mapError] at made
                cases made
                exact .executed waiting found asks done

/-! ### The interpreter that is left -/

theorem interpreter_ask {pc : Int} {word : Word} {go : Bool} (asks : s.ask pc word = (go, left)) :
    s.interpreter.ask pc word = (go, left.interpreter) := by
  unfold ask at asks
  unfold Interpreter.ask
  cases hook : s.interpreter.hooks.onInstruction with
  | none =>
    rw [hook] at asks
    cases asks
    rfl
  | some hook' =>
    rw [hook] at asks
    cases asks
    rfl

theorem interpreter_told (s : Logged σ size) (store : Store) :
    (s.told store).interpreter = s.interpreter.tell store := by
  unfold told tell Interpreter.tell
  cases s.interpreter.hooks.onStore with
  | none => rfl
  | some hook =>
    dsimp only
    cases (hook s.interpreter.observer store).1 with
    | true => simp
    | false => simp [onInterpreter]

theorem interpreter_foldl_told (stores : List Store) (s : Logged σ size) :
    (stores.foldl told s).interpreter = stores.foldl Interpreter.tell s.interpreter := by
  induction stores generalizing s with
  | nil => rfl
  | cons store stores ih => rw [List.foldl_cons, List.foldl_cons, ih, interpreter_told]

theorem interpreter_noted (s : Logged σ size) (stores : List Store) :
    (s.noted stores).interpreter = s.interpreter.noteStores stores := by
  rw [noted, interpreter_foldl_told]
  rfl

/-- What was fetched is what the interpreter fetches. -/
theorem fetch_of_made {pc : Int} {r : Record} {fetched : Logged σ size}
    (found : made (fetch pc) s = (.ok r, fetched)) :
    s.interpreter.fetch pc = (.ok ⟨r.opcode, r.typed⟩, fetched.interpreter) := by
  rw [made_fetch] at found
  match fetch : s.interpreter.fetch pc with
  | (.error cause, i) =>
    rw [fetch] at found
    cases found
  | (.ok ⟨word, instruction⟩, i) =>
    rw [fetch] at found
    cases found
    simp [Decoded.record]

theorem fetch_of_refused {pc : Int} {cause : Cause} {fetched : Logged σ size}
    (found : made (fetch pc) s = (.error cause, fetched)) :
    s.interpreter.fetch pc = (.error cause, fetched.interpreter) := by
  rw [made_fetch] at found
  match fetch : s.interpreter.fetch pc with
  | (.error cause', i) =>
    rw [fetch] at found
    cases found
    rfl
  | (.ok decoded, i) =>
    rw [fetch] at found
    cases found

/-- Every step goes as that of its interpreter. -/
theorem Stepped.interpreter (way : s.Stepped result left) :
    s.interpreter.Stepped result left.interpreter := by
  cases way with
  | polled waiting => exact .polled waiting
  | unfetched active found => exact .unfetched active (fetch_of_refused found)
  | vetoed active found asks =>
    exact .vetoed active (fetch_of_made found) (interpreter_ask asks)
  | @failed r fetched asked left cause active found asks failed =>
    rw [Record.made_execute] at failed
    cases done : (asked.passed s.processor.pc).machine.execute r.typed with
    | ok result =>
      rw [done] at failed
      cases failed
    | error cause' =>
      rw [done] at failed
      cases failed
      have asks := interpreter_ask asks
      exact .failed active (fetch_of_made found) asks done
  | @executed r fetched asked left active found asks executed =>
    rw [Record.made_execute] at executed
    cases done : (asked.passed s.processor.pc).machine.execute r.typed with
    | error cause =>
      rw [done] at executed
      cases executed
    | ok result =>
      rw [done] at executed
      cases executed
      rw [interpreter_noted]
      have ran := Interpreter.Stepped.executed active (fetch_of_made found) (interpreter_ask asks) done
      exact ran

/-- The checks and effects of a step come to what a step of the interpreter comes to. -/
theorem step_eq_made (s : Logged σ size) :
    s.interpreter.step = ((made step s).1, (made step s).2.interpreter) :=
  (stepped rfl).interpreter.step_eq

end Logged

end Chip8
