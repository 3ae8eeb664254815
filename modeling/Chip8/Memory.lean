import Chip8.Fault
import Chip8.Limits

/-! Byte memory of a fixed size.

Addresses are integers and never wrap: an access that leaves memory fails and changes nothing. A
watched memory also counts how often each byte was read and written.
-/

set_option autoImplicit false

namespace Chip8

/-- How often each byte was read and written. -/
structure Tally (size : Nat) where
  reads : Vector Nat size
  writes : Vector Nat size
  deriving DecidableEq

structure Memory (size : Nat) where
  bytes : Vector UInt8 size
  /-- Present if the memory is watched. -/
  tally : Option (Tally size)
  deriving DecidableEq

inductive SizeError where
  | negative
  /-- The size does not fit 64 bits. -/
  | notIndexable
  | outOfMemory
  deriving DecidableEq, Repr

def SizeError.message : SizeError → String
  | negative => "negative count"
  | notIndexable => "cannot fit 'int' into an index-sized integer"
  | outOfMemory => ""

def sizeError? (size : Int) : Option SizeError :=
  if !Limits.isInt64 size then some .notIndexable
  else if size < 0 then some .negative
  else if Limits.maxBytes < size then some .outOfMemory
  else none

/-- The access to `count` bytes from `start` on that leaves a memory, if one does. The start is
named when it is outside itself, and the last address otherwise. -/
def outOfRange? (size : Nat) (start : Int) (count : Nat) : Option OutOfRange :=
  if start < 0 || size ≤ start then some ⟨start, size⟩
  else if size ≤ start + count - 1 then some ⟨start + count - 1, size⟩
  else none

theorem outOfRange?_eq_none_iff {size : Nat} {start : Int} {count : Nat} :
    outOfRange? size start count = none ↔ 0 ≤ start ∧ start < size ∧ start + count ≤ size := by
  simp only [outOfRange?]
  split
  · next outside =>
    simp only [Bool.or_eq_true, decide_eq_true_eq] at outside
    simp only [reduceCtorEq, false_iff]
    omega
  · next inside =>
    simp only [Bool.or_eq_true, decide_eq_true_eq, not_or] at inside
    split
    · simp only [reduceCtorEq, false_iff]
      omega
    · simp only [true_iff]
      omega

/-- An access that starts outside names its start, and any other its last address. -/
theorem outOfRange?_eq_some_iff {size : Nat} {start : Int} {count : Nat} {access : OutOfRange} :
    outOfRange? size start count = some access ↔
      ((start < 0 ∨ size ≤ start) ∧ access = ⟨start, size⟩) ∨
        (0 ≤ start ∧ start < size ∧ size < start + count ∧ access = ⟨start + count - 1, size⟩) := by
  simp only [outOfRange?, Bool.or_eq_true, decide_eq_true_eq]
  by_cases outside : start < 0 ∨ size ≤ start
  · have never : ¬ (0 ≤ start ∧ start < size) := by omega
    rw [if_pos outside, Option.some.injEq]
    constructor
    · rintro rfl
      exact .inl ⟨outside, rfl⟩
    · rintro (⟨-, rfl⟩ | ⟨nonneg, below, -⟩)
      · rfl
      · exact absurd ⟨nonneg, below⟩ never
  · rw [if_neg outside]
    by_cases beyond : (size : Int) ≤ start + count - 1
    · rw [if_pos beyond, Option.some.injEq]
      constructor
      · rintro rfl
        exact .inr ⟨by omega, by omega, by omega, rfl⟩
      · rintro (⟨out, -⟩ | ⟨-, -, -, rfl⟩)
        · exact absurd out outside
        · rfl
    · rw [if_neg beyond]
      constructor
      · exact nofun
      · rintro (⟨out, -⟩ | ⟨-, -, above, -⟩)
        · exact absurd out outside
        · omega

/-- Add one to `count` counters from `start` on. -/
def countFrom {size : Nat} (counters : Vector Nat size) (start : Nat) : Nat → Vector Nat size
  | 0 => counters
  | count + 1 =>
    countFrom (counters.setIfInBounds start (counters[start]?.getD 0 + 1)) (start + 1) count

theorem getElem_countFrom {size : Nat} (count : Nat) (counters : Vector Nat size)
    (start a : Nat) (inside : a < size) :
    (countFrom counters start count)[a] =
      counters[a] + if start ≤ a ∧ a < start + count then 1 else 0 := by
  induction count generalizing counters start with
  | zero => simp [countFrom]
  | succ count ih =>
    rw [countFrom, ih, Vector.getElem_setIfInBounds]
    by_cases here : start = a
    · subst here
      have past : ¬ (start + 1 ≤ start ∧ start < start + 1 + count) := by omega
      have among : start ≤ start ∧ start < start + (count + 1) := by omega
      rw [if_pos rfl, if_neg past, if_pos among, Vector.getElem?_eq_getElem inside]
      rfl
    · rw [if_neg here]
      by_cases among : start ≤ a ∧ a < start + (count + 1)
      · have later : start + 1 ≤ a ∧ a < start + 1 + count := by omega
        rw [if_pos among, if_pos later]
      · have never : ¬ (start + 1 ≤ a ∧ a < start + 1 + count) := by omega
        rw [if_neg among, if_neg never]

/-- Store bytes into cells from `start` on. -/
def storeFrom {size : Nat} (cells : Vector UInt8 size) (start : Nat) : List UInt8 → Vector UInt8 size
  | [] => cells
  | b :: data => storeFrom (cells.setIfInBounds start b) (start + 1) data

theorem getElem_storeFrom {size : Nat} (data : List UInt8) (cells : Vector UInt8 size)
    (start a : Nat) (inside : a < size) :
    (storeFrom cells start data)[a] =
      if start ≤ a then data[a - start]?.getD cells[a] else cells[a] := by
  induction data generalizing cells start with
  | nil => simp [storeFrom]
  | cons b data ih =>
    rw [storeFrom, ih, Vector.getElem_setIfInBounds]
    by_cases here : start = a
    · subst here
      have past : ¬ start + 1 ≤ start := by omega
      rw [if_neg past, if_pos rfl, if_pos (Nat.le_refl start), Nat.sub_self]
      rfl
    · rw [if_neg here]
      by_cases before : start ≤ a
      · have beyond : start + 1 ≤ a := by omega
        have next : a - start = a - (start + 1) + 1 := by omega
        rw [if_pos beyond, if_pos before, next, List.getElem?_cons_succ]
      · have beyond : ¬ start + 1 ≤ a := by omega
        rw [if_neg beyond, if_neg before]

namespace Tally

variable {size : Nat}

def zero : Tally size :=
  ⟨.replicate size 0, .replicate size 0⟩

/-- Count one read of each of `count` bytes from `start` on. -/
def read (start count : Nat) : Tally size → Tally size
  | ⟨reads, writes⟩ => ⟨countFrom reads start count, writes⟩

/-- Count one write of each of `count` bytes from `start` on. -/
def write (start count : Nat) : Tally size → Tally size
  | ⟨reads, writes⟩ => ⟨reads, countFrom writes start count⟩

def totalReads (t : Tally size) : Nat :=
  t.reads.toList.foldl (· + ·) 0

def totalWrites (t : Tally size) : Nat :=
  t.writes.toList.foldl (· + ·) 0

end Tally

namespace Memory

variable {size : Nat}

def zeros (size : Nat) (watched : Bool) : Memory size :=
  ⟨.replicate size 0, if watched then some .zero else none⟩

/-- Memory of zeros, if there can be one of that size. -/
def ofSize (size : Int) (watched : Bool) : Except SizeError (Memory size.toNat) :=
  match sizeError? size with
  | some error => .error error
  | none => .ok (zeros size.toNat watched)

/-- Zero every byte; counts are kept. -/
def reset (m : Memory size) : Memory size :=
  { m with bytes := .replicate size 0 }

def resetCounters (m : Memory size) : Memory size :=
  { m with tally := m.tally.map fun _ => .zero }

/-- The byte at an address inside memory. -/
def byteAt (m : Memory size) (address : Nat) : UInt8 :=
  m.bytes[address]?.getD 0

/-- Count one read of each of `count` bytes from `start` on. -/
def countRead (start count : Nat) : Memory size → Memory size
  | ⟨bytes, tally⟩ => ⟨bytes, tally.map (.read start count)⟩

/-- Store bytes from `start` on, without a check. -/
def store (start : Nat) (data : List UInt8) : Memory size → Memory size
  | ⟨bytes, tally⟩ => ⟨storeFrom bytes start data, tally.map (.write start data.length)⟩

def read (m : Memory size) (address : Int) : Except OutOfRange (UInt8 × Memory size) :=
  match outOfRange? size address 1 with
  | some access => .error access
  | none =>
    let b := m.byteAt address.toNat
    .ok (b, m.countRead address.toNat 1)

/-- Read `count` bytes from `start` on; no bytes are read anywhere if `count` is not positive. -/
def readRange (m : Memory size) (start count : Int) :
    Except OutOfRange (List UInt8 × Memory size) :=
  if count ≤ 0 then .ok ([], m)
  else match outOfRange? size start count.toNat with
    | some access => .error access
    | none =>
      let data := (List.range' start.toNat count.toNat).map m.byteAt
      .ok (data, m.countRead start.toNat count.toNat)

/-- Write the low eight bits of a value. -/
def write (m : Memory size) (address value : Int) : Except OutOfRange (Memory size) :=
  match outOfRange? size address 1 with
  | some access => .error access
  | none => .ok (m.store address.toNat [UInt8.ofInt value])

/-- Write bytes from `start` on, all or none; writing no bytes never fails. -/
def writeRange (m : Memory size) (start : Int) (data : List UInt8) :
    Except OutOfRange (Memory size) :=
  if data.isEmpty then .ok m
  else match outOfRange? size start data.length with
    | some access => .error access
    | none => .ok (m.store start.toNat data)

end Memory

end Chip8
