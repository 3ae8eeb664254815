import Chip8.Machine

/-! What an instruction reads from memory and stores there.

An instruction that succeeds reads a number of bytes from the index on and then stores bytes from
the index on; most do neither. The stores that it reports are those bytes, in ascending order.
-/

set_option autoImplicit false

namespace Chip8

variable {size : Nat}

namespace Memory

@[simp] theorem countRead_zero (m : Memory size) (start : Nat) : m.countRead start 0 = m := by
  obtain ⟨bytes, tally⟩ := m
  cases tally <;> rfl

@[simp] theorem store_nil (m : Memory size) (start : Nat) : m.store start [] = m := by
  obtain ⟨bytes, tally⟩ := m
  cases tally <;> rfl

theorem readRange_ok {m n : Memory size} {start : Int} {count : Nat} {data : List UInt8}
    (read : m.readRange start count = .ok (data, n)) : n = m.countRead start.toNat count := by
  unfold readRange at read
  split at read
  · next empty =>
    have none : count = 0 := by omega
    cases read
    rw [none, countRead_zero]
  · split at read
    · cases read
    · cases read
      rfl

theorem readRange_data {m n : Memory size} {start : Int} {count : Nat} {data : List UInt8}
    (read : m.readRange start count = .ok (data, n)) :
    data = (List.range' start.toNat count).map m.byteAt := by
  unfold readRange at read
  split at read
  · next empty =>
    have none : count = 0 := by omega
    cases read
    rw [none, List.range'_zero, List.map_nil]
  · split at read
    · cases read
    · cases read
      rw [Int.toNat_natCast]

theorem writeRange_ok {m n : Memory size} {start : Int} {data : List UInt8}
    (written : m.writeRange start data = .ok n) : n = m.store start.toNat data := by
  unfold writeRange at written
  split at written
  · next empty =>
    cases written
    rw [List.isEmpty_iff.1 empty, store_nil]
  · split at written
    · cases written
    · cases written
      rfl

theorem write_eq_writeRange (m : Memory size) (address value : Int) :
    m.write address value = m.writeRange address [UInt8.ofInt value] := rfl

theorem writeRange_inside {m n : Memory size} {start : Int} {data : List UInt8}
    (written : m.writeRange start data = .ok n) :
    (0 ≤ start ∧ start + data.length ≤ size) ∨ data = [] := by
  unfold writeRange at written
  split at written
  · next empty => exact .inr (List.isEmpty_iff.1 empty)
  · split at written
    · cases written
    · next inside =>
      rw [outOfRange?_eq_none_iff] at inside
      exact .inl (by omega)

theorem writeRange_of_inside {m : Memory size} {start : Int} {data : List UInt8}
    (inside : (0 ≤ start ∧ start + data.length ≤ size) ∨ data = []) :
    m.writeRange start data = .ok (m.store start.toNat data) := by
  by_cases empty : data = []
  · subst empty
    rw [store_nil]
    rfl
  · obtain ⟨nonneg, fits⟩ := inside.resolve_right empty
    have positive := List.length_pos_iff.2 empty
    have range : outOfRange? size start data.length = none :=
      outOfRange?_eq_none_iff.2 (by omega)
    rw [writeRange, if_neg (mt List.isEmpty_iff.1 empty), range]

theorem byteAt_store (m : Memory size) (start : Nat) (data : List UInt8) {a : Nat}
    (inside : a < size) :
    (m.store start data).byteAt a =
      if start ≤ a then data[a - start]?.getD (m.byteAt a) else m.byteAt a := by
  have read : m.bytes[a]? = some m.bytes[a] := Vector.getElem?_eq_getElem inside
  have stored : (m.store start data).bytes[a]? = some (m.store start data).bytes[a] :=
    Vector.getElem?_eq_getElem inside
  simp only [byteAt, read, stored, Option.getD_some]
  exact getElem_storeFrom data m.bytes start a inside

theorem byteAt_outside (m : Memory size) {a : Nat} (outside : size ≤ a) : m.byteAt a = 0 := by
  rw [byteAt, Vector.getElem?_eq_none outside, Option.getD_none]

theorem byteAt_store_of_ne (m : Memory size) (start : Nat) (data : List UInt8) {a : Nat}
    (other : a < start ∨ start + data.length ≤ a) : (m.store start data).byteAt a = m.byteAt a := by
  by_cases inside : a < size
  · rw [byteAt_store m start data inside]
    split
    · next reached =>
      rw [List.getElem?_eq_none (by omega), Option.getD_none]
    · rfl
  · rw [byteAt_outside _ (by omega), byteAt_outside _ (by omega)]

end Memory

/-! ### Lists of stores -/

namespace Store

theorem mem_range {store : Store} {start : Nat} {data : List UInt8} :
    store ∈ range start data ↔
      start ≤ store.address ∧ data[store.address - start]? = some store.value := by
  induction data generalizing start with
  | nil => simp [range]
  | cons b data ih =>
    obtain ⟨address, value⟩ := store
    simp only [range, List.mem_cons, ih, Store.mk.injEq]
    constructor
    · rintro (⟨rfl, rfl⟩ | ⟨beyond, found⟩)
      · simp
      · have next : address - start = address - (start + 1) + 1 := by omega
        exact ⟨by omega, by rw [next, List.getElem?_cons_succ, found]⟩
    · rintro ⟨reached, found⟩
      by_cases here : address = start
      · subst here
        simp only [Nat.sub_self, List.getElem?_cons_zero, Option.some.injEq] at found
        exact .inl ⟨rfl, found.symm⟩
      · have next : address - start = address - (start + 1) + 1 := by omega
        rw [next, List.getElem?_cons_succ] at found
        exact .inr ⟨by omega, found⟩

theorem pairwise_range (start : Nat) (data : List UInt8) :
    (range start data).Pairwise fun s t => s.address < t.address := by
  induction data generalizing start with
  | nil => exact .nil
  | cons b data ih =>
    refine List.pairwise_cons.2 ⟨fun later member => ?_, ih (start + 1)⟩
    have beyond := (mem_range.1 member).1
    exact beyond

end Store

/-! ### Instructions -/

namespace Instruction

def reads : Instruction → Nat
  | draw _ _ rows => rows.val
  | loadRegisters x => x.val + 1
  | _ => 0

def stored (p : Processor) : Instruction → List UInt8
  | storeDecimal x => p.decimalDigits x
  | storeRegisters x => p.firstRegisters x
  | _ => []

end Instruction

namespace Machine

def transferred (m : Machine size) (reads : Nat) (data : List UInt8) : Memory size :=
  (m.memory.countRead m.processor.index.toNat reads).store m.processor.index.toNat data

@[simp] theorem transferred_nothing (m : Machine size) : m.transferred 0 [] = m.memory := by
  simp [transferred]

theorem draw_ok {m n : Machine size} {stores : List Store} {x y : Register} {rows : Fin 16}
    (done : m.draw x y rows = .ok (n, stores)) :
    n.memory = m.transferred rows.val [] ∧ stores = [] := by
  obtain ⟨p, memory, screen, keypad, random⟩ := m
  simp only [draw] at done
  split at done
  · cases done
  · next data memory read =>
    cases done
    exact ⟨by simp [transferred, Memory.readRange_ok read], rfl⟩

theorem loadRegisters_ok {m n : Machine size} {stores : List Store} {x : Register}
    (done : m.loadRegisters x = .ok (n, stores)) :
    n.memory = m.transferred (x.val + 1) [] ∧ stores = [] := by
  obtain ⟨p, memory, screen, keypad, random⟩ := m
  simp only [loadRegisters] at done
  split at done
  · cases done
  · next data memory read =>
    cases done
    exact ⟨by simp [transferred, Memory.readRange_ok read], rfl⟩

theorem storeAtIndex_ok {m n : Machine size} {stores : List Store} {data : List UInt8}
    (done : m.storeAtIndex data = .ok (n, stores)) :
    n.memory = m.transferred 0 data ∧ stores = Store.range m.processor.index.toNat data ∧
      (m.processor.index.toNat + data.length ≤ size ∨ data = []) := by
  obtain ⟨p, memory, screen, keypad, random⟩ := m
  simp only [storeAtIndex] at done
  split at done
  · cases done
  · next memory written =>
    cases done
    refine ⟨by simp [transferred, Memory.writeRange_ok written], rfl, ?_⟩
    exact (Memory.writeRange_inside written).imp_left fun inside => by dsimp only; omega

theorem ret_ok {m n : Machine size} {stores : List Store} (done : m.ret = .ok (n, stores)) :
    n.memory = m.memory ∧ stores = [] := by
  unfold ret at done
  split at done
  · cases done
  · cases done
    exact ⟨rfl, rfl⟩

/-- An instruction touches memory by reading and then storing from the index on, and reports what
it stores. -/
theorem execute_ok {i : Instruction} {m n : Machine size} {stores : List Store}
    (done : m.execute i = .ok (n, stores)) :
    n.memory = m.transferred i.reads (i.stored m.processor) ∧
      stores = Store.range m.processor.index.toNat (i.stored m.processor) ∧
      (m.processor.index.toNat + (i.stored m.processor).length ≤ size ∨
        i.stored m.processor = []) := by
  cases i with
  | ret =>
    obtain ⟨memory, none⟩ := ret_ok done
    exact ⟨memory.trans m.transferred_nothing.symm, none, .inr rfl⟩
  | draw x y rows =>
    obtain ⟨memory, none⟩ := draw_ok done
    exact ⟨memory, none, .inr rfl⟩
  | loadRegisters x =>
    obtain ⟨memory, none⟩ := loadRegisters_ok done
    exact ⟨memory, none, .inr rfl⟩
  | storeDecimal x => exact storeAtIndex_ok done
  | storeRegisters x => exact storeAtIndex_ok done
  -- The others neither read nor store, so nothing is transferred.
  | _ =>
    cases done
    exact ⟨m.transferred_nothing.symm, rfl, .inr rfl⟩

theorem pairwise_execute {i : Instruction} {m n : Machine size} {stores : List Store}
    (done : m.execute i = .ok (n, stores)) :
    stores.Pairwise fun s t => s.address < t.address := by
  rw [(execute_ok done).2.1]
  exact Store.pairwise_range _ _

theorem byteAt_transferred (m : Machine size) (reads : Nat) (data : List UInt8) (a : Nat) :
    (m.transferred reads data).byteAt a =
      (m.memory.store m.processor.index.toNat data).byteAt a := rfl

theorem byteAt_execute_of_not_stored {i : Instruction} {m n : Machine size} {stores : List Store}
    (done : m.execute i = .ok (n, stores)) {a : Nat} (kept : ∀ s ∈ stores, s.address ≠ a) :
    n.memory.byteAt a = m.memory.byteAt a := by
  obtain ⟨memory, rfl, -⟩ := execute_ok done
  rw [memory, byteAt_transferred]
  apply Memory.byteAt_store_of_ne
  by_cases before : a < m.processor.index.toNat
  · exact .inl before
  · refine .inr (Nat.le_of_not_lt fun among => ?_)
    have offset : a - m.processor.index.toNat < (i.stored m.processor).length := by omega
    -- An address among those written would be that of a store.
    refine kept ⟨a, (i.stored m.processor)[a - m.processor.index.toNat]⟩ ?_ rfl
    exact Store.mem_range.2 ⟨by simpa using before, List.getElem?_eq_getElem offset⟩

theorem byteAt_execute_of_stored {i : Instruction} {m n : Machine size} {stores : List Store}
    (done : m.execute i = .ok (n, stores)) {store : Store} (member : store ∈ stores) :
    n.memory.byteAt store.address = store.value := by
  obtain ⟨memory, rfl, inside⟩ := execute_ok done
  obtain ⟨reached, found⟩ := Store.mem_range.1 member
  have offset := (List.getElem?_eq_some_iff.1 found).1
  have room : store.address < size := by
    rcases inside with inside | none
    · omega
    · simp [none] at offset
  rw [memory, byteAt_transferred, Memory.byteAt_store _ _ _ room, if_pos reached, found,
    Option.getD_some]

end Machine

end Chip8
