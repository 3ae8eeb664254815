import Chip8.Proofs.FaultConditions
import Chip8.Proofs.MemoryAccess

/-! What the bytes of a memory are, told by the stores that were made.

A byte is the last one that was stored at its address since memory was last reset, and zero if none
was. An access is refused just when it asks for a byte outside memory, and then it leaves memory as
it was.
-/

set_option autoImplicit false

namespace Chip8

variable {size : Nat}

/-! ### What a log tells of the bytes -/

namespace Access

/-- The value that an access stores at an address, if it was served and covers the address. -/
def storedAt? (a : Int) : Access × Outcome → Option Int
  | (write address value, .ok _) => if a = address then some value else none
  | (writeRange start values, .ok _) => if start ≤ a then values[(a - start).toNat]? else none
  | _ => none

/-- A byte is written like a range of one byte. -/
theorem storedAt?_write (a address value : Int) (data : List UInt8) :
    storedAt? a (write address value, .ok data) =
      storedAt? a (writeRange address [value], .ok data) := by
  simp only [storedAt?]
  by_cases here : a = address
  · simp [here]
  · by_cases reached : address ≤ a
    · have past : [value].length ≤ (a - address).toNat := by
        rw [List.length_singleton]
        omega
      rw [if_neg here, if_pos reached, List.getElem?_eq_none past]
    · rw [if_neg here, if_neg reached]

def extent : Access → Int × Nat
  | read address | write address _ => (address, 1)
  | readRange start count => (start, count.toNat)
  | writeRange start values => (start, values.length)
  | reset | dump | resetCounters => (0, 0)

def Fits (size : Nat) (access : Access) : Prop :=
  InRange size access.extent.1 access.extent.2

/-- The address that is named when an access does not fit: the first one if that is outside, and the
last one otherwise. -/
def named (size : Nat) (access : Access) : Int :=
  if 0 ≤ access.extent.1 ∧ access.extent.1 < size then access.extent.1 + access.extent.2 - 1
  else access.extent.1

end Access

open Access (addresses storedAt? InRange)

namespace AccessLog

def sinceReset (log : AccessLog) : AccessLog :=
  log.rtakeWhile fun entry => entry.1 ≠ .reset

/-- The value of the last store at an address since the last reset, if there is one. -/
def lastStored? (log : AccessLog) (a : Int) : Option Int :=
  (log.sinceReset.filterMap (storedAt? a)).getLast?

/-- What a log tells of the byte at an address: the last value stored there, modulo 256. -/
def byteAt (log : AccessLog) (a : Int) : Int :=
  (log.lastStored? a).getD 0 % 256

theorem lastStored?_reset (log : AccessLog) (outcome : Access.Outcome) (a : Int) :
    lastStored? (log ++ [(.reset, outcome)]) a = none := by
  simp [lastStored?, sinceReset]

theorem lastStored?_concat (log : AccessLog) {access : Access} (kept : access ≠ .reset)
    (outcome : Access.Outcome) (a : Int) :
    lastStored? (log ++ [(access, outcome)]) a =
      (storedAt? a (access, outcome)).or (log.lastStored? a) := by
  rw [lastStored?, sinceReset, List.rtakeWhile_concat, if_pos (by simpa using kept),
    List.filterMap_append, List.getLast?_append]
  cases stored : storedAt? a (access, outcome) with
  | none => simp [stored, lastStored?, sinceReset]
  | some value => simp [stored]

end AccessLog

/-! ### Accesses -/

theorem toNat_ofInt_byte (value : Int) : ((UInt8.ofInt value).toNat : Int) = value % 256 := by
  rw [UInt8.ofInt, UInt8.toNat_ofNat']
  omega

namespace Memory

variable {m n : Memory size} {log : AccessLog}

def Recalls (m : Memory size) (log : AccessLog) : Prop :=
  ∀ a : Nat, a < size → ((m.byteAt a).toNat : Int) = log.byteAt a

theorem recalls_zeros (watched : Bool) : (zeros size watched).Recalls [] := by
  intro a inside
  have zero : (zeros size watched).byteAt a = 0 := by simp [byteAt, zeros, inside]
  rw [zero]
  rfl

theorem recalls_reset (m : Memory size) (log : AccessLog) (outcome : Access.Outcome) :
    m.reset.Recalls (log ++ [(.reset, outcome)]) := by
  intro a inside
  have zero : m.reset.byteAt a = 0 := by simp [byteAt, reset, inside]
  rw [zero, AccessLog.byteAt, AccessLog.lastStored?_reset]
  rfl

/-- What stores nothing changes no byte and tells of none. -/
theorem Recalls.still (recalls : m.Recalls log) {access : Access} {outcome : Access.Outcome}
    (kept : access ≠ .reset) (bytes : n.bytes = m.bytes)
    (stored : ∀ a, storedAt? a (access, outcome) = none) :
    n.Recalls (log ++ [(access, outcome)]) := by
  intro a inside
  rw [AccessLog.byteAt, AccessLog.lastStored?_concat log kept, stored, Option.none_or, byteAt, bytes]
  exact recalls a inside

theorem Recalls.store (recalls : m.Recalls log) {start : Int} {values : List Int}
    (inRange : InRange size start values.length) (outcome : List UInt8) :
    (m.store start.toNat (values.map UInt8.ofInt)).Recalls
      (log ++ [(.writeRange start values, .ok outcome)]) := by
  intro a inside
  rw [byteAt_store _ _ _ inside, AccessLog.byteAt, AccessLog.lastStored?_concat log (by simp),
    storedAt?, List.getElem?_map]
  have before := recalls a inside
  rw [AccessLog.byteAt] at before
  rw [InRange] at inRange
  by_cases empty : values = []
  · simp [empty, before]
  · have positive := List.length_pos_iff.2 empty
    -- In front of the range, the difference of natural numbers would be zero.
    by_cases reached : start ≤ a
    · have offset : ((a : Int) - start).toNat = a - start.toNat := by omega
      have passed : start.toNat ≤ a := by omega
      rw [if_pos passed, if_pos reached, offset]
      cases values[a - start.toNat]? with
      | none => exact before
      | some value => exact toNat_ofInt_byte value
    · have short : ¬ start.toNat ≤ a := by omega
      rw [if_neg short, if_neg reached, Option.none_or]
      exact before

/-- A memory still recalls a log when an access and its outcome are added to it. -/
theorem Recalls.perform (recalls : m.Recalls log) (access : Access) :
    (m.perform access).2.Recalls (log ++ [(access, (m.perform access).1)]) := by
  by_cases resets : access = .reset
  · subst resets
    exact recalls_reset m log _
  · have way := m.performed access
    generalize (m.perform access).1 = outcome at way ⊢
    generalize (m.perform access).2 = left at way ⊢
    cases way with
    | refused =>
      apply recalls.still resets rfl
      intro a
      cases access <;> rfl
    | read | readRange | dump | resetCounters => exact recalls.still resets rfl fun a => rfl
    | @write address value inRange =>
      -- The log has an access to one byte where a range is stored.
      have single : InRange size address [value].length := inRange
      have stored := recalls.store single []
      intro a inside
      rw [AccessLog.byteAt, AccessLog.lastStored?_concat log resets, Access.storedAt?_write,
        ← AccessLog.lastStored?_concat log (by simp)]
      exact stored a inside
    | writeRange inRange => exact recalls.store inRange []
    | reset => exact absurd rfl resets

theorem recalls_performAll (watched : Bool) (accesses : List Access) :
    ((zeros size watched).performAll accesses).2.Recalls
      ((zeros size watched).performAll accesses).1 := by
  induction accesses using List.reverseRecOn with
  | nil => exact recalls_zeros watched
  | append_singleton accesses access ih =>
    rw [performAll_concat]
    exact ih.perform access

/-! ### Refusals -/

theorem settle_eq_error_iff {result : Except OutOfRange (List UInt8 × Memory size)}
    {error : OutOfRange} : (m.settle result).1 = .error error ↔ result = .error error := by
  cases result <;> simp [settle]

theorem map_eq_error_iff {α β : Type} {change : α → β} {result : Except OutOfRange α}
    {error : OutOfRange} : result.map change = .error error ↔ result = .error error := by
  cases result <;> simp [Except.map]

theorem read_eq_error_iff {address : Int} {error : OutOfRange} :
    m.read address = .error error ↔ outOfRange? size address 1 = some error := by
  unfold read
  cases outOfRange? size address 1 <;> simp

theorem perform_eq_error_iff {access : Access} {error : OutOfRange} :
    (m.perform access).1 = .error error ↔
      0 < access.extent.2 ∧ outOfRange? size access.extent.1 access.extent.2 = some error := by
  cases access with
  | read address =>
    simp only [perform, settle_eq_error_iff, map_eq_error_iff, read_eq_error_iff, Access.extent]
    simp
  | write address value =>
    simp only [perform, settle_eq_error_iff, map_eq_error_iff, write_eq_writeRange]
    exact writeRange_eq_error_iff
  | readRange start count =>
    have nonneg : m.readRange start count = m.readRange start count.toNat := by
      unfold readRange
      by_cases empty : count ≤ 0
      · rw [if_pos empty, if_pos (by omega)]
      · rw [if_neg empty, if_neg (by omega), Int.toNat_natCast]
    simp only [perform, settle_eq_error_iff, nonneg, readRange_eq_error_iff, Access.extent]
  | writeRange start values =>
    simp only [perform, settle_eq_error_iff, map_eq_error_iff, writeRange_eq_error_iff,
      List.length_map, Access.extent]
  | reset | dump | resetCounters => simp [perform, Access.extent]

/-- An access is refused just when it does not fit. -/
theorem refused_iff {access : Access} {error : OutOfRange} :
    (m.perform access).1 = .error error ↔
      ¬ access.Fits size ∧ error = ⟨access.named size, size⟩ := by
  rw [perform_eq_error_iff, outOfRange?_eq_some_iff, Access.Fits, Access.named, InRange]
  by_cases within : 0 ≤ access.extent.1 ∧ access.extent.1 < size
  · rw [if_pos within]
    grind
  · rw [if_neg within]
    grind

theorem refused_unchanged {access : Access} {error : OutOfRange}
    (refused : (m.perform access).1 = .error error) : (m.perform access).2 = m := by
  have way := m.performed access
  rw [refused] at way
  generalize (m.perform access).2 = left at way
  cases way
  rfl

/-! ### A bounded store of bytes -/

structure Holds (m : Memory size) (log : AccessLog) : Prop where
  read : ∀ a : Int, 0 ≤ a → a < size →
    ∃ b n, m.read a = .ok (b, n) ∧ (b.toNat : Int) = log.byteAt a
  readRange : ∀ start count : Int, 0 < count → 0 ≤ start → start + count ≤ size →
    ∃ data n, m.readRange start count = .ok (data, n) ∧
      data.map (fun b => (b.toNat : Int)) = (addresses start count.toNat).map log.byteAt
  readNothing : ∀ start count : Int, count ≤ 0 → m.readRange start count = .ok ([], m)
  refused : ∀ access error, (m.perform access).1 = .error error ↔
    ¬ access.Fits size ∧ error = ⟨access.named size, size⟩
  unchanged : ∀ access error, (m.perform access).1 = .error error → (m.perform access).2 = m

theorem Recalls.holds (recalls : m.Recalls log) : m.Holds log where
  read a nonneg inside := by
    have range : outOfRange? size a 1 = none := outOfRange?_eq_none_iff.2 (by omega)
    have recalled := recalls a.toNat (by omega)
    rw [Int.toNat_of_nonneg nonneg] at recalled
    refine ⟨m.byteAt a.toNat, m.countRead a.toNat 1, ?_, recalled⟩
    simp only [Memory.read, range]
  readRange start count positive nonneg inside := by
    have range : outOfRange? size start count.toNat = none :=
      outOfRange?_eq_none_iff.2 (by omega)
    refine ⟨(List.range' start.toNat count.toNat).map m.byteAt, m.countRead start.toNat count.toNat,
      ?_, ?_⟩
    · rw [Memory.readRange, if_neg (by omega), range]
    · rw [addresses, List.range'_eq_map_range, List.map_map, List.map_map, List.map_map]
      apply List.map_congr_left
      intro k below
      have within := List.mem_range.1 below
      have recalled := recalls (start.toNat + k) (by omega)
      have address : ((start.toNat + k : Nat) : Int) = start + k := by omega
      rw [address] at recalled
      exact recalled
  readNothing start count empty := by rw [Memory.readRange, if_pos empty]
  refused access error := refused_iff
  unchanged access error := refused_unchanged

/-- Whatever was asked of a memory of any size, and whichever accesses were refused, a byte is the
last one stored at its address since the last reset. -/
theorem last_store_wins (size : Nat) (watched : Bool) (accesses : List Access) :
    ((zeros size watched).performAll accesses).2.Holds
      ((zeros size watched).performAll accesses).1 :=
  (recalls_performAll watched accesses).holds

/-- Stores that run over one before them, the last of them refused. -/
example : ((zeros 4 false).performAll
    [.writeRange 0 [1, 2], .reset, .write 2 9, .writeRange 1 [300, -1], .writeRange 3 [5, 6]]).2.bytes =
      #v[0, 44, 255, 0] := by
  decide

end Memory

end Chip8
