import Chip8.Proofs.Execution

/-! Registers saved to memory and loaded back.

Registers that are stored from the index on come back when they are loaded from there, whatever ran
in between, if it stored to none of these cells. Registers that are loaded and stored again leave
memory as it was, and the decimal digits of a register make up its value.
-/

set_option autoImplicit false

namespace Chip8

variable {σ : Type} {size : Nat}

/-! ### Registers -/

namespace Processor

/-- Registers are filled from a list of bytes as memory is. -/
theorem foldl_setIfInBounds_eq_storeFrom (values : List UInt8) (first : Nat) (v : Vector UInt8 16) :
    (values.zipIdx first).foldl (fun v (value, i) => v.setIfInBounds i value) v =
      storeFrom v first values := by
  induction values generalizing first v with
  | nil => rfl
  | cons value values ih =>
    rw [List.zipIdx_cons, List.foldl_cons, ih]
    rfl

theorem get_setFirst_of_lt (p : Processor) {values : List UInt8} {r : Register}
    (named : r.val < values.length) : (p.setFirst values).get r = values[r.val] := by
  have filled := getElem_storeFrom values p.v 0 r.val r.isLt
  rw [← foldl_setIfInBounds_eq_storeFrom, if_pos (Nat.zero_le r.val), Nat.sub_zero,
    List.getElem?_eq_getElem named, Option.getD_some] at filled
  exact filled

theorem getElem_firstRegisters (p : Processor) {x r : Register}
    (named : r.val < (p.firstRegisters x).length) : (p.firstRegisters x)[r.val] = p.get r := by
  simp only [firstRegisters, List.getElem_take]
  exact Vector.getElem_toList _

end Processor

/-! ### Bytes -/

namespace Memory

variable {m : Memory size} {start : Nat} {data : List UInt8}

theorem byteAt_store_add (inside : start + data.length ≤ size) {k : Nat} (among : k < data.length) :
    (m.store start data).byteAt (start + k) = data[k] := by
  rw [byteAt_store _ _ _ (by omega), if_pos (Nat.le_add_right start k), Nat.add_sub_cancel_left,
    List.getElem?_eq_getElem among, Option.getD_some]

/-- Storing the bytes that are there already changes none. -/
theorem bytes_store_same (same : ∀ k (among : k < data.length), data[k] = m.byteAt (start + k)) :
    (m.store start data).bytes = m.bytes := by
  refine Vector.ext fun a inside => ?_
  have stored := getElem_storeFrom data m.bytes start a inside
  refine stored.trans ?_
  by_cases among : start ≤ a ∧ a - start < data.length
  · have there := same (a - start) among.2
    have address : start + (a - start) = a := by omega
    rw [address, byteAt, Vector.getElem?_eq_getElem inside, Option.getD_some] at there
    rw [if_pos among.1, List.getElem?_eq_getElem among.2, Option.getD_some, there]
  · by_cases reached : start ≤ a
    · have past : data.length ≤ a - start := by omega
      rw [if_pos reached, List.getElem?_eq_none past, Option.getD_none]
    · rw [if_neg reached]

end Memory

/-! ### Transfers -/

namespace Machine

variable {m : Machine size}

theorem storeAtIndex_of_inside {data : List UInt8}
    (inside : m.processor.index.toNat + data.length ≤ size) :
    m.storeAtIndex data = .ok ({ m with memory := m.memory.store m.processor.index.toNat data },
      Store.range m.processor.index.toNat data) := by
  obtain ⟨p, memory, screen, keypad, random⟩ := m
  dsimp only at inside
  have written : memory.writeRange p.index.toNat data = .ok (memory.store p.index.toNat data) :=
    Memory.writeRange_of_inside (.inl ⟨Int.natCast_nonneg _, by omega⟩)
  simp only [storeAtIndex, written]

/-- The bytes from the index on that go to registers 0 to `x`. -/
def bytesAtIndex (m : Machine size) (x : Register) : List UInt8 :=
  (List.range' m.processor.index.toNat (x.val + 1)).map m.memory.byteAt

theorem getElem_bytesAtIndex {x : Register} {k : Nat} (among : k < (m.bytesAtIndex x).length) :
    (m.bytesAtIndex x)[k] = m.memory.byteAt (m.processor.index.toNat + k) := by
  simp [bytesAtIndex]

theorem length_bytesAtIndex (m : Machine size) (x : Register) :
    (m.bytesAtIndex x).length = x.val + 1 := by
  simp [bytesAtIndex]

theorem loadRegisters_of_inside {x : Register}
    (inside : m.processor.index.toNat + (x.val + 1) ≤ size) :
    m.loadRegisters x = .ok ({ m with
      processor := m.processor.setFirst (m.bytesAtIndex x)
      memory := m.memory.countRead m.processor.index.toNat (x.val + 1) }, []) := by
  obtain ⟨p, memory, screen, keypad, random⟩ := m
  have range : outOfRange? size p.index.toNat (x.val + 1) = none := by
    rw [outOfRange?_eq_none_iff]
    dsimp only at inside
    omega
  have read : memory.readRange p.index.toNat ((x.val : Int) + 1) =
      .ok ((List.range' p.index.toNat (x.val + 1)).map memory.byteAt,
        memory.countRead p.index.toNat (x.val + 1)) := by
    rw [Memory.readRange, if_neg (by omega)]
    have count : ((x.val : Int) + 1).toNat = x.val + 1 := by omega
    rw [count, range]
    rfl
  simp only [loadRegisters, read]
  rfl

end Machine

namespace Interpreter

variable {i j k : Interpreter σ size} {word : Word} {x : Register} {data : List UInt8}

structure Stored (i : Interpreter σ size) (data : List UInt8) : Prop where
  ran : i.step.1 = .ok true
  index : i.step.2.machine.processor.index = i.machine.processor.index
  registers : ∀ r, i.step.2.machine.processor.get r = i.machine.processor.get r
  bytes : i.step.2.machine.memory.bytes =
    (i.machine.memory.store i.machine.processor.index.toNat data).bytes

theorem Executes.stored {instruction : Instruction} (next : i.Executes ⟨word, instruction⟩)
    (stores : i.machine.past.execute instruction = i.machine.past.storeAtIndex data)
    (inside : i.machine.processor.index.toNat + data.length ≤ size) : i.Stored data := by
  have done := i.machine.past.storeAtIndex_of_inside inside
  obtain ⟨ran, left⟩ := next.performs.done (stores.trans done)
  exact {
    ran
    index := congrArg (·.processor.index) left
    registers := fun r => congrArg (·.processor.get r) left
    bytes := congrArg (·.memory.bytes) left }

/-- A step that stores bytes goes through only if there is room for them. -/
theorem Executes.room {instruction : Instruction} (next : i.Executes ⟨word, instruction⟩)
    (stores : i.machine.past.execute instruction = i.machine.past.storeAtIndex data)
    (nonempty : data ≠ []) (ran : i.step.1 = .ok true) :
    i.machine.processor.index.toNat + data.length ≤ size := by
  cases done : i.machine.past.storeAtIndex data with
  | error cause =>
    rw [next.performs.failed (stores.trans done)] at ran
    cases ran
  | ok result => exact (Machine.storeAtIndex_ok done).2.2.resolve_right nonempty

structure Loaded (i : Interpreter σ size) (x : Register) : Prop where
  ran : i.step.1 = .ok true
  index : i.step.2.machine.processor.index = i.machine.processor.index
  named : ∀ r, r ≤ x → i.step.2.machine.processor.get r =
    i.machine.memory.byteAt (i.machine.processor.index.toNat + r.val)
  others : ∀ r, x < r → i.step.2.machine.processor.get r = i.machine.processor.get r
  bytes : i.step.2.machine.memory.bytes = i.machine.memory.bytes

theorem Executes.loaded (next : i.Executes ⟨word, .loadRegisters x⟩)
    (inside : i.machine.processor.index.toNat + (x.val + 1) ≤ size) : i.Loaded x := by
  have done := i.machine.past.loadRegisters_of_inside inside
  have length := i.machine.past.length_bytesAtIndex x
  obtain ⟨ran, left⟩ := next.performs.done done
  exact {
    ran
    index := congrArg (·.processor.index) left
    named := by
      intro r named
      have among : r.val < (i.machine.past.bytesAtIndex x).length := by
        rw [length]
        exact Nat.lt_succ_of_le named
      refine (congrArg (·.processor.get r) left).trans ?_
      exact (Processor.get_setFirst_of_lt _ among).trans (Machine.getElem_bytesAtIndex among)
    others := by
      intro r other
      refine (congrArg (·.processor.get r) left).trans ?_
      refine Processor.get_setFirst_of_le _ ?_
      rw [length]
      exact other
    bytes := congrArg (·.memory.bytes) left }

/-! ### Runs that spare some cells -/

def StoresTo (i : Interpreter σ size) (a : Nat) : Prop :=
  ∃ instruction, i.executed? = some instruction ∧ i.machine.processor.index.toNat ≤ a ∧
    a < i.machine.processor.index.toNat + instruction.storeCount

theorem not_storesTo {instruction : Instruction} (executed : i.executed? = some instruction) {a : Nat}
    (apart : a < i.machine.processor.index.toNat ∨
      i.machine.processor.index.toNat + instruction.storeCount ≤ a) : ¬ i.StoresTo a := by
  rintro ⟨other, found, reached, below⟩
  rw [executed] at found
  cases found
  omega

/-- A run of steps none of which stores to one of some cells. A step may fail, and between steps a
host may do what leaves these cells alone. -/
inductive Spares (cells : Nat → Prop) : Interpreter σ size → Interpreter σ size → Prop where
  | here {i : Interpreter σ size} : Spares cells i i
  | step {i j k : Interpreter σ size} {result : Except Fault Bool} : Spares cells i j →
      j.step = (result, k) → (∀ a, cells a → ¬ j.StoresTo a) → Spares cells i k
  | host {i j k : Interpreter σ size} : Spares cells i j →
      (∀ a, cells a → k.machine.memory.byteAt a = j.machine.memory.byteAt a) → Spares cells i k

theorem byteAt_step {result : Except Fault Bool} (step : i.step = (result, j)) {a : Nat}
    (spared : ¬ i.StoresTo a) : j.machine.memory.byteAt a = i.machine.memory.byteAt a := by
  cases stepped step with
  | polled waiting => rw [Machine.memory_poll]
  | unfetched active fetch => exact congrArg (·.memory.byteAt a) (fetch_leaves fetch).1
  | vetoed active fetch ask =>
    rw [ask_keeps ask]
    exact congrArg (·.memory.byteAt a) (fetch_leaves fetch).1
  | failed active fetch ask failed =>
    exact congrArg (·.memory.byteAt a) (passed_leaves fetch ask)
  | @executed decoded fetched asked machine stores active fetch ask done =>
    have fetched : (i.fetch i.machine.processor.pc).1 = .ok decoded := by rw [fetch]
    refine (step_footprint active fetched step).memory a ?_
    by_cases before : a < i.machine.processor.index.toNat
    · exact .inl before
    · -- An address that is neither before the stores nor behind them is stored to.
      refine .inr (Nat.le_of_not_lt fun below => spared ?_)
      exact ⟨_, executed?_of_executed active fetch step, Nat.le_of_not_lt before, below⟩

theorem Spares.byteAt {cells : Nat → Prop} (run : Spares cells i j) {a : Nat} (spared : cells a) :
    j.machine.memory.byteAt a = i.machine.memory.byteAt a := by
  induction run with
  | here => rfl
  | step earlier step spares ih => rw [byteAt_step step (spares a spared), ih]
  | host earlier spares ih => rw [spares a spared, ih]

/-- Bytes that a step has stored are loaded, after any run that spares them, by a later step with the
same index. -/
theorem Stored.loaded (stored : i.Stored data)
    (room : i.machine.processor.index.toNat + data.length ≤ size) {cells : Nat → Prop}
    (run : Spares cells i.step.2 k)
    (spared : ∀ n < data.length, cells (i.machine.processor.index.toNat + n))
    (index : k.machine.processor.index = i.machine.processor.index) (loaded : k.Loaded x)
    {r : Register} (named : r ≤ x) (among : r.val < data.length) :
    k.step.2.machine.processor.get r = data[r.val] := by
  rw [loaded.named r named, index, run.byteAt (spared r.val among), Memory.byteAt, stored.bytes]
  exact Memory.byteAt_store_add room among

/-- A transfer for which there is no room fails and changes nothing but the program counter. -/
theorem Executes.untouched {instruction : Instruction} (next : i.Executes ⟨word, instruction⟩)
    (moves : 0 < instruction.span)
    (outside : size < i.machine.processor.index.toNat + instruction.span) :
    i.step.1 ≠ .ok true ∧ i.Untouched i.step.2 := by
  have missed : outOfRange? size i.machine.past.processor.index.toNat instruction.span ≠ none := by
    intro inside
    have fits := (outOfRange?_eq_none_iff.1 inside).2.2
    have same : i.machine.past.processor.index = i.machine.processor.index := rfl
    rw [same] at fits
    omega
  obtain ⟨access, named⟩ := Option.ne_none_iff_exists'.1 missed
  have failed := Machine.execute_eq_error_iff.2 (.inr ⟨moves, access, named, rfl⟩)
  have result := next.performs.failed failed
  refine ⟨by simp [result], untouched_of_failed (Prod.ext result rfl)⟩

/-! ### There and back -/

structure Restored (i k : Interpreter σ size) (x : Register) : Prop where
  ran : k.step.1 = .ok true
  named : ∀ r, r ≤ x → k.step.2.machine.processor.get r = i.machine.processor.get r
  others : ∀ r, x < r → k.step.2.machine.processor.get r = k.machine.processor.get r
  indexStoring : i.step.2.machine.processor.index = i.machine.processor.index
  indexLoading : k.step.2.machine.processor.index = k.machine.processor.index

theorem restored {here there : Word} (store : i.Executes ⟨here, .storeRegisters x⟩)
    (ran : i.step.1 = .ok true)
    (run : Spares (fun a => i.machine.processor.index.toNat ≤ a ∧
      a ≤ i.machine.processor.index.toNat + x.val) i.step.2 k)
    (index : k.machine.processor.index = i.machine.processor.index)
    (load : k.Executes ⟨there, .loadRegisters x⟩) : Restored i k x := by
  have length := i.machine.processor.length_firstRegisters x
  have nonempty : i.machine.processor.firstRegisters x ≠ [] := by
    rw [← List.length_pos_iff, length]
    exact Nat.succ_pos x.val
  have stores : i.machine.past.execute (.storeRegisters x) =
      i.machine.past.storeAtIndex (i.machine.processor.firstRegisters x) := rfl
  -- A store that ran had room for its bytes, of which there is at least one.
  have room := store.room stores nonempty ran
  have stored := store.stored stores room
  have loaded := load.loaded (by rw [index, ← length]; exact room)
  exact {
    ran := loaded.ran
    named := by
      intro r named
      have among : r.val < (i.machine.processor.firstRegisters x).length := by
        rw [length]
        exact Nat.lt_succ_of_le named
      rw [stored.loaded room run (fun n below => ⟨by omega, by omega⟩) index loaded named among]
      exact i.machine.processor.getElem_firstRegisters among
    others := loaded.others
    indexStoring := stored.index
    indexLoading := loaded.index }

/-- The next two steps leave every byte of memory, and the second goes through if the first does. -/
structure Resaved (i : Interpreter σ size) : Prop where
  ran : i.step.1 = .ok true → i.step.2.step.1 = .ok true
  bytes : i.step.2.step.2.machine.memory.bytes = i.machine.memory.bytes
  indexLoading : i.step.2.machine.processor.index = i.machine.processor.index
  indexStoring : i.step.2.step.2.machine.processor.index = i.machine.processor.index

theorem resaved {here there : Word} (load : i.Executes ⟨here, .loadRegisters x⟩)
    (store : i.step.2.Executes ⟨there, .storeRegisters x⟩) : Resaved i := by
  by_cases inside : i.machine.processor.index.toNat + (x.val + 1) ≤ size
  · have loaded := load.loaded inside
    have length := i.step.2.machine.processor.length_firstRegisters x
    have stores : i.step.2.machine.past.execute (.storeRegisters x) =
        i.step.2.machine.past.storeAtIndex (i.step.2.machine.processor.firstRegisters x) := rfl
    have stored := store.stored stores (by rw [loaded.index, length]; exact inside)
    have same := stored.bytes.trans (Memory.bytes_store_same fun n among => by
      -- Each register that is stored was loaded from where it is stored to.
      have below : n < 16 := by
        rw [length] at among
        omega
      have named : (⟨n, below⟩ : Register) ≤ x := by
        rw [length] at among
        exact Nat.le_of_lt_succ among
      have read := loaded.named ⟨n, below⟩ named
      rw [Memory.byteAt, loaded.bytes, loaded.index, ← Memory.byteAt, ← read]
      exact Processor.getElem_firstRegisters _ (r := ⟨n, below⟩) among)
    exact ⟨fun _ => stored.ran, same.trans loaded.bytes, loaded.index,
      stored.index.trans loaded.index⟩
  · obtain ⟨failed, first⟩ := load.untouched (Nat.succ_pos x.val) (by
      simp only [Instruction.span]
      omega)
    have index := congrArg Processor.index first.processor
    obtain ⟨-, second⟩ := store.untouched (Nat.succ_pos x.val) (by
      simp only [Instruction.span, index]
      omega)
    exact ⟨fun ran => absurd ran failed, second.bytes.trans first.bytes, index,
      (congrArg Processor.index second.processor).trans index⟩

structure Spelled (i : Interpreter σ size) (x : Register) : Prop where
  ran : i.step.2.step.1 = .ok true
  digits : ∀ r : Register, r ≤ 2 → (i.step.2.step.2.machine.processor.get r).toNat ≤ 9
  value : 100 * (i.step.2.step.2.machine.processor.get 0).toNat +
      10 * (i.step.2.step.2.machine.processor.get 1).toNat +
      (i.step.2.step.2.machine.processor.get 2).toNat = (i.machine.processor.get x).toNat
  others : ∀ r, 2 < r →
    i.step.2.step.2.machine.processor.get r = i.machine.processor.get r
  indexStoring : i.step.2.machine.processor.index = i.machine.processor.index
  indexLoading : i.step.2.step.2.machine.processor.index = i.machine.processor.index

theorem spelled {here there : Word} (store : i.Executes ⟨here, .storeDecimal x⟩)
    (ran : i.step.1 = .ok true) (load : i.step.2.Executes ⟨there, .loadRegisters 2⟩) :
    Spelled i x := by
  have stores : i.machine.past.execute (.storeDecimal x) =
      i.machine.past.storeAtIndex (i.machine.processor.decimalDigits x) := rfl
  have nonempty : i.machine.processor.decimalDigits x ≠ [] := List.cons_ne_nil _ _
  have room := store.room stores nonempty ran
  have stored := store.stored stores room
  have loaded := load.loaded (by rw [stored.index]; exact room)
  -- Nothing runs in between, so no cell needs to be spared.
  have atOnce : Spares (fun _ => True) i.step.2 i.step.2 := .here
  have loads (r : Register) (named : r ≤ 2) :=
    stored.loaded room atOnce (fun _ _ => trivial) stored.index loaded named
      (Nat.lt_succ_of_le named)
  have hundreds : i.step.2.step.2.machine.processor.get 0 = i.machine.processor.get x / 100 :=
    loads 0 (by decide)
  have tens : i.step.2.step.2.machine.processor.get 1 = i.machine.processor.get x / 10 % 10 :=
    loads 1 (by decide)
  have units : i.step.2.step.2.machine.processor.get 2 = i.machine.processor.get x % 10 :=
    loads 2 (by decide)
  have below := (i.machine.processor.get x).toNat_lt
  exact {
    ran := loaded.ran
    digits := by
      intro r named
      obtain rfl | rfl | rfl : r = 0 ∨ r = 1 ∨ r = 2 := by
        revert r
        decide
      · simp only [hundreds, UInt8.toNat_div, UInt8.reduceToNat]
        omega
      · simp only [tens, UInt8.toNat_div, UInt8.toNat_mod, UInt8.reduceToNat]
        omega
      · simp only [units, UInt8.toNat_mod, UInt8.reduceToNat]
        omega
    value := by
      simp only [hundreds, tens, units, UInt8.toNat_div, UInt8.toNat_mod, UInt8.reduceToNat]
      omega
    others := fun r other => (loaded.others r other).trans (stored.registers r)
    indexStoring := stored.index
    indexLoading := loaded.index.trans stored.index }

end Interpreter

open Interpreter (Spares Restored Resaved Spelled)

/-- Registers come back from memory as they were saved, saving what was loaded changes no byte, and
a register is the number that its decimal digits spell. -/
theorem transfers_return :
    (∀ (i k : Interpreter σ size) (x : Register) (here there : Word),
      i.Executes ⟨here, .storeRegisters x⟩ → i.step.1 = .ok true →
        Spares (fun a => i.machine.processor.index.toNat ≤ a ∧
          a ≤ i.machine.processor.index.toNat + x.val) i.step.2 k →
        k.machine.processor.index = i.machine.processor.index →
          k.Executes ⟨there, .loadRegisters x⟩ → Restored i k x) ∧
      (∀ (i : Interpreter σ size) (x : Register) (here there : Word),
        i.Executes ⟨here, .loadRegisters x⟩ → i.step.2.Executes ⟨there, .storeRegisters x⟩ →
          Resaved i) ∧
      ∀ (i : Interpreter σ size) (x : Register) (here there : Word),
        i.Executes ⟨here, .storeDecimal x⟩ → i.step.1 = .ok true →
          i.step.2.Executes ⟨there, .loadRegisters 2⟩ → Spelled i x :=
  ⟨fun _ _ _ _ _ store ran run index load => Interpreter.restored store ran run index load,
    fun _ _ _ _ load store => Interpreter.resaved load store,
    fun _ _ _ _ store ran load => Interpreter.spelled store ran load⟩

/-- Two registers are saved at 18, one of them is overwritten and both are saved again behind that;
then they are loaded from 18, saved there once more, and the second is taken apart into digits. -/
def saveTwo : Interpreter Unit 22 where
  machine := {
    processor := { pc := 0, index := 18, v := (Vector.replicate 16 0).set 0 7 |>.set 1 234 }
    memory := ⟨#v[0xF1, 0x55, 0x60, 0x00, 0xA0, 0x14, 0xF1, 0x55, 0xA0, 0x12, 0xF1, 0x65, 0xF1, 0x55,
      0xF1, 0x33, 0xF2, 0x65, 0, 0, 0, 0], none⟩
    screen := .blank
    keypad := .released
    random := ⟨.replicate 624 0, 0⟩ }
  cache := none
  hooks := {}
  observer := ()
  stopRequested := false

def saveTwoAfter (steps : Nat) : Interpreter Unit 22 :=
  steps.repeat (·.step.2) saveTwo

theorem transfers_return_saveTwo :
    saveTwo.Executes ⟨0xF155, .storeRegisters 1⟩ ∧
      Spares (fun a => 18 ≤ a ∧ a ≤ 19) saveTwo.step.2 (saveTwoAfter 5) ∧
      (saveTwoAfter 5).Executes ⟨0xF165, .loadRegisters 1⟩ ∧
      (saveTwoAfter 6).Executes ⟨0xF155, .storeRegisters 1⟩ ∧
      (saveTwoAfter 7).Executes ⟨0xF133, .storeDecimal 1⟩ ∧
      (saveTwoAfter 8).Executes ⟨0xF265, .loadRegisters 2⟩ ∧
      Restored saveTwo (saveTwoAfter 5) 1 ∧ Resaved (saveTwoAfter 5) ∧ Spelled (saveTwoAfter 7) 1 := by
  have save : saveTwo.Executes ⟨0xF155, .storeRegisters 1⟩ := ⟨rfl, _, _, rfl, rfl⟩
  have load : (saveTwoAfter 5).Executes ⟨0xF165, .loadRegisters 1⟩ :=
    ⟨rfl, _, _, Prod.ext rfl rfl, rfl⟩
  have resave : (saveTwoAfter 6).Executes ⟨0xF155, .storeRegisters 1⟩ :=
    ⟨rfl, _, _, Prod.ext rfl rfl, rfl⟩
  have spell : (saveTwoAfter 7).Executes ⟨0xF133, .storeDecimal 1⟩ :=
    ⟨rfl, _, _, Prod.ext rfl rfl, rfl⟩
  have read : (saveTwoAfter 8).Executes ⟨0xF265, .loadRegisters 2⟩ :=
    ⟨rfl, _, _, Prod.ext rfl rfl, rfl⟩
  -- Of the steps in between, one stores two bytes, and these are behind the cells.
  have run : Spares (fun a => 18 ≤ a ∧ a ≤ 19) saveTwo.step.2 (saveTwoAfter 5) := by
    have overwrites : (saveTwoAfter 1).executed? = some (.setByte 0 0) := rfl
    have points : (saveTwoAfter 2).executed? = some (.setIndex 20) := rfl
    have stores : (saveTwoAfter 3).executed? = some (.storeRegisters 1) := rfl
    have goesBack : (saveTwoAfter 4).executed? = some (.setIndex 18) := rfl
    have step (n : Nat) :
      (saveTwoAfter n).step = ((saveTwoAfter n).step.1, saveTwoAfter (n + 1)) := rfl
    have begun : Spares (fun a => 18 ≤ a ∧ a ≤ 19) saveTwo.step.2 (saveTwoAfter 1) := .here
    refine .step (.step (.step (.step begun (step 1) ?_) (step 2) ?_) (step 3) ?_) (step 4) ?_
    · exact fun a cell => Interpreter.not_storesTo overwrites (.inr cell.1)
    · exact fun a cell => Interpreter.not_storesTo points (.inr cell.1)
    · exact fun a cell => Interpreter.not_storesTo stores (.inl (Nat.lt_succ_of_le cell.2))
    · exact fun a cell => Interpreter.not_storesTo goesBack (.inl (Nat.lt_succ_of_le cell.2))
  obtain ⟨restored, resaved, spelled⟩ := @transfers_return Unit 22
  exact ⟨save, run, load, resave, spell, read,
    restored saveTwo (saveTwoAfter 5) 1 _ _ save rfl run rfl load,
    resaved (saveTwoAfter 5) 1 _ _ load resave, spelled (saveTwoAfter 7) 1 _ _ spell rfl read⟩

end Chip8
