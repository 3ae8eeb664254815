import Chip8.Proofs.MemoryTraffic
import Chip8.Proofs.Procedure

/-! Calls of a memory, check by check and effect by effect.

A plain memory checks the addresses and then reads or stores bytes. A watched one calls the plain one
and then, if that was not refused, counts address by address. Both come to the accesses of a memory
that may have counters.
-/

set_option autoImplicit false

namespace Chip8

variable {size : Nat} {α : Type}

abbrev MemoryCall (size : Nat) := Procedure OutOfRange (Memory size)

namespace MemoryCall

open Procedure

def inside (start : Int) (count : Nat) : MemoryCall size Unit :=
  check id (outOfRange? size start count)

/-! ### Plain memory -/

namespace Plain

def read (address : Int) : MemoryCall size UInt8 := do
  inside address 1
  look (·.byteAt address.toNat)

def readRange (start count : Int) : MemoryCall size (List UInt8) :=
  if count ≤ 0 then pure []
  else do
    inside start count.toNat
    look fun m => (List.range' start.toNat count.toNat).map m.byteAt

def write (address value : Int) : MemoryCall size Unit := do
  inside address 1
  change fun m => { m with bytes := m.bytes.setIfInBounds address.toNat (UInt8.ofInt value) }

def writeRange (start : Int) (data : List UInt8) : MemoryCall size Unit :=
  if data.isEmpty then pure ()
  else do
    inside start data.length
    change fun m => { m with bytes := storeFrom m.bytes start.toNat data }

end Plain

/-! ### Watched memory -/

def addOne (counters : Vector Nat size) (address : Nat) : Vector Nat size :=
  counters.setIfInBounds address (counters[address]?.getD 0 + 1)

def countRead (address : Int) : MemoryCall size Unit :=
  change fun m => { m with
    tally := m.tally.map fun t => { t with reads := addOne t.reads address.toNat } }

def countWrite (address : Int) : MemoryCall size Unit :=
  change fun m => { m with
    tally := m.tally.map fun t => { t with writes := addOne t.writes address.toNat } }

def each (visit : Int → MemoryCall size Unit) (start : Int) : (count : Nat) → MemoryCall size Unit
  | 0 => pure ()
  | count + 1 => do
    visit start
    each visit (start + 1) count

namespace Watched

def read (address : Int) : MemoryCall size UInt8 := do
  let b ← Plain.read address
  countRead address
  return b

def readRange (start count : Int) : MemoryCall size (List UInt8) := do
  let data ← Plain.readRange start count
  each countRead start data.length
  return data

def write (address value : Int) : MemoryCall size Unit := do
  Plain.write address value
  countWrite address

def writeRange (start : Int) (data : List UInt8) : MemoryCall size Unit := do
  Plain.writeRange start data
  each countWrite start data.length

end Watched

/-! ### Any memory -/

/-- A call that a watched memory answers in its own way. -/
def either (plain watched : MemoryCall size α) : MemoryCall size α := do
  if ← look (·.tally.isSome) then watched else plain

def read (address : Int) : MemoryCall size UInt8 :=
  either (Plain.read address) (Watched.read address)

def readRange (start count : Int) : MemoryCall size (List UInt8) :=
  either (Plain.readRange start count) (Watched.readRange start count)

def write (address value : Int) : MemoryCall size Unit :=
  either (Plain.write address value) (Watched.write address value)

def writeRange (start : Int) (data : List UInt8) : MemoryCall size Unit :=
  either (Plain.writeRange start data) (Watched.writeRange start data)

variable {m : Memory size}

def settled (m : Memory size) : Except OutOfRange (α × Memory size) → Except OutOfRange α × Memory size
  | .error access => (.error access, m)
  | .ok (a, left) => (.ok a, left)

theorem made_each_countRead {start : Int} (nonneg : 0 ≤ start) (count : Nat) (m : Memory size) :
    made (each countRead start count) m = (.ok (), m.countRead start.toNat count) := by
  induction count generalizing start m with
  | zero => rw [Memory.countRead_zero, each, made_pure]
  | succ count ih =>
    have next : (start + 1).toNat = start.toNat + 1 := by omega
    simp only [each, made_bind, countRead, made_change, ih (by omega : 0 ≤ start + 1), next]
    obtain ⟨bytes, tally⟩ := m
    cases tally <;> rfl

theorem made_each_countWrite {start : Int} (nonneg : 0 ≤ start) (count : Nat) (m : Memory size) :
    made (each countWrite start count) m =
      (.ok (), { m with tally := m.tally.map (.write start.toNat count) }) := by
  induction count generalizing start m with
  | zero =>
    obtain ⟨bytes, tally⟩ := m
    cases tally <;> rfl
  | succ count ih =>
    have next : (start + 1).toNat = start.toNat + 1 := by omega
    simp only [each, made_bind, countWrite, made_change, ih (by omega : 0 ≤ start + 1), next]
    obtain ⟨bytes, tally⟩ := m
    cases tally <;> rfl

theorem made_read (address : Int) (m : Memory size) :
    made (read address) m = settled m (m.read address) := by
  obtain ⟨bytes, tally⟩ := m
  simp only [read, either, Plain.read, Watched.read, inside, Memory.read]
  cases outside : outOfRange? size address 1 with
  | some access => cases tally <;> rfl
  | none => cases tally <;> rfl

theorem made_readRange (start count : Int) (m : Memory size) :
    made (readRange start count) m = settled m (m.readRange start count) := by
  by_cases nothing : count ≤ 0
  · obtain ⟨bytes, tally⟩ := m
    simp only [readRange, either, Plain.readRange, Watched.readRange, Memory.readRange, if_pos nothing]
    cases tally <;> rfl
  · simp only [readRange, either, Plain.readRange, Watched.readRange, Memory.readRange,
      if_neg nothing, inside]
    cases outside : outOfRange? size start count.toNat with
    | some access =>
      obtain ⟨bytes, tally⟩ := m
      cases tally <;> rfl
    | none =>
      have nonneg := (outOfRange?_eq_none_iff.1 outside).1
      obtain ⟨bytes, tally⟩ := m
      cases tally with
      | none => rfl
      | some t =>
        simp only [check, made_bind, made_look, made_pure, Option.isSome_some, if_true, List.length_map,
          List.length_range', made_each_countRead nonneg, settled]

theorem made_writeRange (start : Int) (data : List UInt8) (m : Memory size) :
    made (writeRange start data) m = settled m ((m.writeRange start data).map ((), ·)) := by
  by_cases nothing : data.isEmpty
  · obtain rfl := List.isEmpty_iff.1 nothing
    obtain ⟨bytes, tally⟩ := m
    cases tally <;> rfl
  · simp only [writeRange, either, Plain.writeRange, Watched.writeRange, Memory.writeRange,
      if_neg nothing, inside]
    cases outside : outOfRange? size start data.length with
    | some access =>
      obtain ⟨bytes, tally⟩ := m
      cases tally <;> rfl
    | none =>
      have nonneg := (outOfRange?_eq_none_iff.1 outside).1
      obtain ⟨bytes, tally⟩ := m
      cases tally with
      | none => rfl
      | some t =>
        simp only [check, made_bind, made_look, made_pure, made_change, Option.isSome_some, if_true,
          made_each_countWrite nonneg]
        rfl

theorem made_write (address value : Int) (m : Memory size) :
    made (write address value) m = settled m ((m.write address value).map ((), ·)) := by
  obtain ⟨bytes, tally⟩ := m
  simp only [write, either, Plain.write, Watched.write, inside, Memory.write]
  cases outside : outOfRange? size address 1 with
  | some access => cases tally <;> rfl
  | none => cases tally <;> rfl

/-! ### Checks come first -/

theorem Plain.atomic_read (address : Int) : Atomic (Plain.read address : MemoryCall size UInt8) :=
  (looks_check _ _).bind fun _ => (certain_look _).atomic

theorem Plain.atomic_readRange (start count : Int) :
    Atomic (Plain.readRange start count : MemoryCall size (List UInt8)) := by
  unfold Plain.readRange
  split
  · exact (certain_pure []).atomic
  · exact (looks_check _ _).bind fun _ => (certain_look _).atomic

theorem Plain.atomic_write (address value : Int) :
    Atomic (Plain.write address value : MemoryCall size Unit) :=
  (looks_check _ _).bind fun _ => (certain_change _).atomic

theorem Plain.atomic_writeRange (start : Int) (data : List UInt8) :
    Atomic (Plain.writeRange start data : MemoryCall size Unit) := by
  unfold Plain.writeRange
  split
  · exact (certain_pure ()).atomic
  · exact (looks_check _ _).bind fun _ => (certain_change _).atomic

theorem certain_each {visit : Int → MemoryCall size Unit} (certain : ∀ a, Certain (visit a))
    (start : Int) (count : Nat) : Certain (each visit start count) := by
  induction count generalizing start with
  | zero => exact certain_pure ()
  | succ count ih => exact (certain start).bind fun _ => ih (start + 1)

theorem atomic_either {plain watched : MemoryCall size α} (first : Atomic plain)
    (second : Atomic watched) : Atomic (either plain watched) := by
  refine (looks_look _).bind fun isWatched => ?_
  cases isWatched with
  | true => exact second
  | false => exact first

theorem atomic_read (address : Int) : Atomic (read address : MemoryCall size UInt8) :=
  atomic_either (Plain.atomic_read address) <|
    (Plain.atomic_read address).bind fun _ => (certain_change _).bind fun _ => certain_pure _

theorem atomic_readRange (start count : Int) :
    Atomic (readRange start count : MemoryCall size (List UInt8)) :=
  atomic_either (Plain.atomic_readRange start count) <|
    (Plain.atomic_readRange start count).bind fun _ =>
      (certain_each (fun _ => certain_change _) _ _).bind fun _ => certain_pure _

theorem atomic_write (address value : Int) :
    Atomic (write address value : MemoryCall size Unit) :=
  atomic_either (Plain.atomic_write address value) <|
    (Plain.atomic_write address value).bind fun _ => certain_change _

theorem atomic_writeRange (start : Int) (data : List UInt8) :
    Atomic (writeRange start data : MemoryCall size Unit) :=
  atomic_either (Plain.atomic_writeRange start data) <|
    (Plain.atomic_writeRange start data).bind fun _ => certain_each (fun _ => certain_change _) _ _

end MemoryCall

end Chip8
