import Chip8.Machine

/-! Access counters are watched from outside only.

Dropping the counters of a memory commutes with everything that a program does. Results, bytes and
faults therefore do not depend on how often memory was read.
-/

set_option autoImplicit false

namespace Chip8

variable {size : Nat}

/-! ### Memory -/

namespace Memory

def bare (m : Memory size) : Memory size :=
  { m with tally := none }

@[simp] theorem bytes_bare (m : Memory size) : m.bare.bytes = m.bytes := rfl

@[simp] theorem byteAt_bare (m : Memory size) (address : Nat) :
    m.bare.byteAt address = m.byteAt address := rfl

theorem readRange_bare (m : Memory size) (start count : Int) :
    m.bare.readRange start count =
      (m.readRange start count).map fun (data, m) => (data, m.bare) := by
  unfold readRange
  split
  · rfl
  · split <;> rfl

theorem writeRange_bare (m : Memory size) (start : Int) (data : List UInt8) :
    m.bare.writeRange start data = (m.writeRange start data).map bare := by
  unfold writeRange
  split
  · rfl
  · split <;> rfl

theorem bytes_of_read {m n : Memory size} {address : Int} {b : UInt8}
    (read : m.read address = .ok (b, n)) : n.bytes = m.bytes := by
  unfold Memory.read at read
  split at read
  · cases read
  · cases read
    rfl

theorem bytes_of_readRange {m n : Memory size} {start count : Int} {data : List UInt8}
    (read : m.readRange start count = .ok (data, n)) : n.bytes = m.bytes := by
  unfold readRange at read
  split at read
  · cases read
    rfl
  · split at read
    · cases read
    · cases read
      rfl

end Memory

/-! ### The machine -/

namespace Machine

def bare (m : Machine size) : Machine size :=
  { m with memory := m.memory.bare }

@[simp] theorem processor_bare (m : Machine size) : m.bare.processor = m.processor := rfl

@[simp] theorem memory_bare (m : Machine size) : m.bare.memory = m.memory.bare := rfl

@[simp] theorem screen_bare (m : Machine size) : m.bare.screen = m.screen := rfl

@[simp] theorem keypad_bare (m : Machine size) : m.bare.keypad = m.keypad := rfl

@[simp] theorem random_bare (m : Machine size) : m.bare.random = m.random := rfl

@[simp] theorem memory_poll (m : Machine size) : m.poll.memory = m.memory := by
  unfold poll
  split <;> rfl

theorem poll_bare (m : Machine size) : m.bare.poll = m.poll.bare := by
  unfold poll
  simp only [keypad_bare]
  split <;> rfl

@[simp] theorem bare_readWord (m : Machine size) (address : Int) :
    (m.readWord address).2.bare = m.bare := by
  obtain ⟨p, memory, screen, keypad, random⟩ := m
  unfold readWord Memory.read
  cases outOfRange? size address 1 with
  | some access => rfl
  | none =>
    cases outOfRange? size (address + 1) 1 with
    | some access => rfl
    | none => rfl

theorem writes_readWord (m : Machine size) (address : Int) :
    (m.readWord address).2.memory.tally.map (·.writes) = m.memory.tally.map (·.writes) := by
  obtain ⟨p, ⟨bytes, tally⟩, screen, keypad, random⟩ := m
  unfold Machine.readWord Memory.read
  cases outOfRange? size address 1 with
  | some access => rfl
  | none =>
    cases outOfRange? size (address + 1) 1 with
    | some access => cases tally <;> rfl
    | none => cases tally <;> rfl

theorem processor_readWord (m : Machine size) (address : Int) :
    (m.readWord address).2.processor = m.processor := by
  have same := congrArg Machine.processor (m.bare_readWord address)
  exact same

@[simp] theorem readWord_bare (m : Machine size) (address : Int) :
    (m.bare.readWord address).2 = m.bare := by
  obtain ⟨p, memory, screen, keypad, random⟩ := m
  unfold readWord Memory.read bare
  cases outOfRange? size address 1 with
  | some access => rfl
  | none =>
    cases outOfRange? size (address + 1) 1 with
    | some access => rfl
    | none => rfl

/-- A word is made of two bytes; the first that is missing is named. -/
theorem readWord_fst (m : Machine size) (address : Int) :
    (m.readWord address).1 =
      match outOfRange? size address 1, outOfRange? size (address + 1) 1 with
      | some access, _ | none, some access => .error access
      | none, none =>
        .ok (Word.ofBytes (m.memory.byteAt address.toNat) (m.memory.byteAt (address + 1).toNat)) := by
  obtain ⟨p, memory, screen, keypad, random⟩ := m
  unfold readWord Memory.read
  cases outOfRange? size address 1 with
  | some access => rfl
  | none =>
    cases outOfRange? size (address + 1) 1 with
    | some access => rfl
    | none => rfl

end Machine

/-! ### Execution -/

namespace Machine

def bareEffect (effect : Effect size) : Effect size :=
  effect.map fun (m, stores) => (m.bare, stores)

theorem draw_bare (m : Machine size) (x y : Register) (rows : Fin 16) :
    m.bare.draw x y rows = bareEffect (m.draw x y rows) := by
  obtain ⟨p, memory, screen, keypad, random⟩ := m
  simp only [bare, draw, Memory.readRange_bare]
  cases memory.readRange p.index.toNat rows.val with
  | error access => rfl
  | ok result => rfl

theorem loadRegisters_bare (m : Machine size) (x : Register) :
    m.bare.loadRegisters x = bareEffect (m.loadRegisters x) := by
  obtain ⟨p, memory, screen, keypad, random⟩ := m
  simp only [bare, loadRegisters, Memory.readRange_bare]
  cases memory.readRange p.index.toNat (x.val + 1) with
  | error access => rfl
  | ok result => rfl

theorem storeAtIndex_bare (m : Machine size) (data : List UInt8) :
    m.bare.storeAtIndex data = bareEffect (m.storeAtIndex data) := by
  obtain ⟨p, memory, screen, keypad, random⟩ := m
  simp only [bare, storeAtIndex, Memory.writeRange_bare]
  cases memory.writeRange p.index.toNat data with
  | error access => rfl
  | ok result => rfl

theorem ret_bare (m : Machine size) : m.bare.ret = bareEffect m.ret := by
  unfold ret
  simp only [processor_bare]
  split <;> rfl

/-- What an instruction does to a machine does not depend on counters. -/
theorem execute_bare (i : Instruction) (m : Machine size) :
    m.bare.execute i = bareEffect (m.execute i) := by
  cases i with
  | ret => exact ret_bare m
  | draw x y rows => exact draw_bare m x y rows
  | storeDecimal x => exact storeAtIndex_bare m _
  | storeRegisters x => exact storeAtIndex_bare m _
  | loadRegisters x => exact loadRegisters_bare m x
  -- No other instruction looks at memory.
  | _ => rfl

end Machine

end Chip8
