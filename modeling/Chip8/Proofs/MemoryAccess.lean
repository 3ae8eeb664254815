import Mathlib.Algebra.BigOperators.Fin
import Mathlib.Data.List.DropRight
import Chip8.Proofs.Counters
import Chip8.Proofs.MemoryCalls

/-! Sequences of accesses to a memory, and what the counters of a watched memory tell of them.

A watched memory answers as a plain one does. Each of its counters is the number of times that a byte
was delivered or stored at that address, by accesses that were served, since the counters were last
reset. An access to a range is the accesses to its bytes, one after the other.
-/

set_option autoImplicit false

namespace Chip8

inductive Access where
  | read (address : Int)
  | write (address value : Int)
  | readRange (start count : Int)
  -- Write the low eight bits of each value.
  | writeRange (start : Int) (values : List Int)
  | reset
  | dump
  | resetCounters
  deriving DecidableEq, Repr

/-- The bytes that an access delivers, or why it was refused. -/
abbrev Access.Outcome := Except OutOfRange (List UInt8)

abbrev AccessLog := List (Access × Access.Outcome)

variable {size : Nat}

namespace Memory

/-- The outcome of an access that leaves the memory as it was when it is refused. -/
def settle (m : Memory size) :
    Except OutOfRange (List UInt8 × Memory size) → Access.Outcome × Memory size
  | .error access => (.error access, m)
  | .ok (data, m) => (.ok data, m)

def perform (m : Memory size) : Access → Access.Outcome × Memory size
  | .read address => m.settle ((m.read address).map fun (b, m) => ([b], m))
  | .write address value => m.settle ((m.write address value).map ([], ·))
  | .readRange start count => m.settle (m.readRange start count)
  | .writeRange start values =>
    m.settle ((m.writeRange start (values.map UInt8.ofInt)).map ([], ·))
  | .reset => (.ok [], m.reset)
  | .dump => (.ok m.bytes.toList, m)
  | .resetCounters => (.ok [], m.resetCounters)

/-- Serve accesses in turn, also after one that was refused. -/
def performAll (m : Memory size) : List Access → AccessLog × Memory size
  | [] => ([], m)
  | access :: accesses =>
    let (outcome, m) := m.perform access
    let (log, m) := m.performAll accesses
    ((access, outcome) :: log, m)

theorem performAll_cons {m n : Memory size} {access : Access} {outcome : Access.Outcome}
    (served : m.perform access = (outcome, n)) (accesses : List Access) :
    m.performAll (access :: accesses) =
      ((access, outcome) :: (n.performAll accesses).1, (n.performAll accesses).2) := by
  simp only [performAll, served]

theorem performAll_concat (m : Memory size) (accesses : List Access) (access : Access) :
    m.performAll (accesses ++ [access]) =
      ((m.performAll accesses).1 ++ [(access, ((m.performAll accesses).2.perform access).1)],
        ((m.performAll accesses).2.perform access).2) := by
  induction accesses generalizing m with
  | nil => rfl
  | cons first accesses ih => simp only [List.cons_append, performAll, ih]

end Memory

/-! ### Checks and effects -/

open Procedure in
def Access.call : Access → MemoryCall size (List UInt8)
  | read address => do
    let b ← MemoryCall.read address
    return [b]
  | write address value => do
    MemoryCall.write address value
    return []
  | readRange start count => MemoryCall.readRange start count
  | writeRange start values => do
    MemoryCall.writeRange start (values.map UInt8.ofInt)
    return []
  | reset => do
    change Memory.reset
    return []
  | dump => look (·.bytes.toList)
  | resetCounters => do
    change Memory.resetCounters
    return []

namespace Access

open Procedure MemoryCall

/-- The checks and effects of an access come to the access. -/
theorem made_call (access : Access) (m : Memory size) :
    access.call.made m = m.perform access := by
  cases access with
  | read address =>
    simp only [call, made_bind, made_read, Memory.perform]
    cases m.read address <;> rfl
  | write address value =>
    simp only [call, made_bind, made_write, Memory.perform]
    cases m.write address value <;> rfl
  | readRange start count =>
    simp only [call, made_readRange, Memory.perform]
    cases m.readRange start count <;> rfl
  | writeRange start values =>
    simp only [call, made_bind, made_writeRange, Memory.perform]
    cases m.writeRange start (values.map UInt8.ofInt) <;> rfl
  | reset | dump | resetCounters => rfl

theorem atomic_call (access : Access) : Atomic (access.call : MemoryCall size (List UInt8)) := by
  cases access with
  | read address => exact (atomic_read address).bind fun _ => certain_pure _
  | write address value => exact (atomic_write address value).bind fun _ => certain_pure _
  | readRange start count => exact atomic_readRange start count
  | writeRange start values => exact (atomic_writeRange _ _).bind fun _ => certain_pure _
  | reset | resetCounters => exact ((certain_change _).bind fun _ => certain_pure _).atomic
  | dump => exact (certain_look _).atomic

end Access

namespace Memory

/-! ### Counters take no part -/

theorem settle_bare (m : Memory size) (result : Except OutOfRange (List UInt8 × Memory size)) :
    m.bare.settle (result.map fun (data, m) => (data, m.bare)) =
      ((m.settle result).1, (m.settle result).2.bare) := by
  cases result <;> rfl

theorem read_bare (m : Memory size) (address : Int) :
    m.bare.read address = (m.read address).map fun (b, m) => (b, m.bare) := by
  unfold read
  split <;> rfl

theorem perform_bare (m : Memory size) (access : Access) :
    m.bare.perform access = ((m.perform access).1, (m.perform access).2.bare) := by
  cases access with
  | read address =>
    simp only [perform, read_bare, ← settle_bare]
    cases m.read address <;> rfl
  | write address value =>
    simp only [perform, write_eq_writeRange, writeRange_bare, ← settle_bare]
    cases m.writeRange address [UInt8.ofInt value] <;> rfl
  | readRange start count => simp only [perform, readRange_bare, settle_bare]
  | writeRange start values =>
    simp only [perform, writeRange_bare, ← settle_bare]
    cases m.writeRange start (values.map UInt8.ofInt) <;> rfl
  | reset => rfl
  | dump => rfl
  | resetCounters => rfl

theorem performAll_bare (m : Memory size) (accesses : List Access) :
    m.bare.performAll accesses = ((m.performAll accesses).1, (m.performAll accesses).2.bare) := by
  induction accesses generalizing m with
  | nil => rfl
  | cons access accesses ih => simp only [performAll, perform_bare, ih]

end Memory

/-! ### What a log tells of the counters -/

namespace Access

def addresses (start : Int) (count : Nat) : List Int :=
  (List.range count).map fun (k : Nat) => start + k

/-- The addresses of the bytes that an access delivers. -/
def delivered : Access × Outcome → List Int
  | (read address, .ok _) => [address]
  | (readRange start _, .ok data) => addresses start data.length
  | _ => []

def stored : Access × Outcome → List Int
  | (write address _, .ok _) => [address]
  | (writeRange start values, .ok _) => addresses start values.length
  | _ => []

theorem addresses_one (address : Int) : addresses address 1 = [address] := by
  simp [addresses]

theorem mem_addresses {start : Int} {count : Nat} {a : Int} :
    a ∈ addresses start count ↔ start ≤ a ∧ a < start + count := by
  simp only [addresses, List.mem_map, List.mem_range]
  constructor
  · rintro ⟨k, below, rfl⟩
    omega
  · rintro ⟨reached, below⟩
    exact ⟨(a - start).toNat, by omega, by omega⟩

theorem addresses_succ (start : Int) (count : Nat) :
    addresses start (count + 1) = start :: addresses (start + 1) count := by
  simp only [addresses, List.range_succ_eq_map, List.map_cons, List.map_map, List.cons.injEq]
  refine ⟨by simp, List.map_congr_left fun k _ => ?_⟩
  simp only [Function.comp_apply, Nat.cast_succ]
  omega

theorem nodup_addresses (start : Int) (count : Nat) : (addresses start count).Nodup :=
  List.Nodup.map (fun _ _ same => by omega) List.nodup_range

theorem count_addresses (start : Int) (count : Nat) (a : Int) :
    (addresses start count).count a = if start ≤ a ∧ a < start + count then 1 else 0 := by
  rw [(nodup_addresses start count).count]
  exact if_congr mem_addresses rfl rfl

/-- Bytes from a start on lie inside memory, if there are any. -/
def InRange (size : Nat) (start : Int) (count : Nat) : Prop :=
  (0 ≤ start ∧ start + count ≤ size) ∨ count = 0

theorem InRange.inside {start : Int} {count : Nat} (inRange : InRange size start count) {a : Int}
    (member : a ∈ addresses start count) : 0 ≤ a ∧ a < size := by
  have among := mem_addresses.1 member
  rw [InRange] at inRange
  omega

def singly : Access → List Access
  | readRange start count => (addresses start count.toNat).map read
  | writeRange start values => (addresses start values.length).zipWith write values
  | access => [access]

end Access

open Access (addresses delivered stored InRange)

def AccessLog.sinceResetCounters (log : AccessLog) : AccessLog :=
  log.rtakeWhile fun entry => entry.1 ≠ .resetCounters

namespace Tally

/-- Counters that went up by one for each of some bytes read and each of some bytes written, all of
them inside memory. -/
structure Counted (t : Tally size) (read written : List Int) (t' : Tally size) : Prop where
  reads : ∀ a : Fin size, t'.reads[a] = t.reads[a] + read.count (a : Int)
  writes : ∀ a : Fin size, t'.writes[a] = t.writes[a] + written.count (a : Int)
  inside : ∀ a ∈ read ++ written, 0 ≤ a ∧ a < size

theorem Counted.nothing (t : Tally size) : t.Counted [] [] t where
  reads a := by simp
  writes a := by simp
  inside a member := absurd member List.not_mem_nil

theorem Counted.trans {t t' t'' : Tally size} {read written read' written' : List Int}
    (first : t.Counted read written t') (second : t'.Counted read' written' t'') :
    t.Counted (read ++ read') (written ++ written') t'' where
  reads a := by rw [second.reads, first.reads, List.count_append, Nat.add_assoc]
  writes a := by rw [second.writes, first.writes, List.count_append, Nat.add_assoc]
  inside a member := by
    simp only [List.mem_append] at member
    rcases member with (member | member) | (member | member)
    · exact first.inside a (List.mem_append_left _ member)
    · exact second.inside a (List.mem_append_left _ member)
    · exact first.inside a (List.mem_append_right _ member)
    · exact second.inside a (List.mem_append_right _ member)

theorem getElem_countFrom_addresses (counters : Vector Nat size) {start : Int} {count : Nat}
    (inRange : InRange size start count) (a : Fin size) :
    (countFrom counters start.toNat count)[a] =
      counters[a] + (addresses start count).count (a : Int) := by
  have counted := getElem_countFrom count counters start.toNat a a.isLt
  rw [Access.count_addresses]
  refine counted.trans (congrArg _ (if_congr ?_ rfl rfl))
  rw [InRange] at inRange
  omega

theorem Counted.read (t : Tally size) {start : Int} {count : Nat} (inRange : InRange size start count) :
    t.Counted (addresses start count) [] (t.read start.toNat count) where
  reads := getElem_countFrom_addresses t.reads inRange
  writes a := by simp [Tally.read]
  inside a member := inRange.inside (by simpa using member)

theorem Counted.write (t : Tally size) {start : Int} {count : Nat} (inRange : InRange size start count) :
    t.Counted [] (addresses start count) (t.write start.toNat count) where
  reads a := by simp [Tally.write]
  writes := getElem_countFrom_addresses t.writes inRange
  inside a member := inRange.inside (by simpa using member)

end Tally

/-! ### What an access counts -/

namespace Memory

open Tally (Counted)

variable {m n : Memory size}

theorem read_served {address : Int} {b : UInt8} (served : m.read address = .ok (b, n)) :
    n = m.countRead address.toNat 1 ∧ InRange size address 1 := by
  unfold read at served
  split at served
  · cases served
  · next inside =>
    cases served
    rw [outOfRange?_eq_none_iff] at inside
    exact ⟨rfl, .inl ⟨inside.1, inside.2.2⟩⟩

theorem readRange_served {start count : Int} {data : List UInt8}
    (served : m.readRange start count = .ok (data, n)) :
    n = m.countRead start.toNat data.length ∧ InRange size start data.length := by
  unfold readRange at served
  split at served
  · cases served
    exact ⟨(m.countRead_zero _).symm, .inr rfl⟩
  · split at served
    · cases served
    · next inside =>
      cases served
      rw [outOfRange?_eq_none_iff] at inside
      rw [List.length_map, List.length_range']
      exact ⟨rfl, .inl ⟨inside.1, inside.2.2⟩⟩

theorem writeRange_served {start : Int} {data : List UInt8}
    (served : m.writeRange start data = .ok n) :
    n = m.store start.toNat data ∧ InRange size start data.length :=
  ⟨writeRange_ok served, (writeRange_inside served).imp_right List.length_eq_zero_iff.2⟩

inductive Performed (m : Memory size) : Access → Access.Outcome → Memory size → Prop where
  | refused {access : Access} {error : OutOfRange} : Performed m access (.error error) m
  | read {address : Int} {b : UInt8} : InRange size address 1 →
      Performed m (.read address) (.ok [b]) (m.countRead address.toNat 1)
  | readRange {start count : Int} {data : List UInt8} : InRange size start data.length →
      Performed m (.readRange start count) (.ok data) (m.countRead start.toNat data.length)
  | write {address value : Int} : InRange size address 1 →
      Performed m (.write address value) (.ok []) (m.store address.toNat [UInt8.ofInt value])
  | writeRange {start : Int} {values : List Int} : InRange size start values.length →
      Performed m (.writeRange start values) (.ok [])
        (m.store start.toNat (values.map UInt8.ofInt))
  | reset : Performed m .reset (.ok []) m.reset
  | dump : Performed m .dump (.ok m.bytes.toList) m
  | resetCounters : Performed m .resetCounters (.ok []) m.resetCounters

theorem performed (m : Memory size) (access : Access) :
    m.Performed access (m.perform access).1 (m.perform access).2 := by
  cases access with
  | read address =>
    simp only [perform]
    cases served : m.read address with
    | error access => exact .refused
    | ok result =>
      obtain ⟨b, n⟩ := result
      obtain ⟨rfl, inRange⟩ := read_served served
      exact .read inRange
  | write address value =>
    -- One byte is a range of one.
    simp only [perform, write_eq_writeRange]
    cases served : m.writeRange address [UInt8.ofInt value] with
    | error access => exact .refused
    | ok n =>
      obtain ⟨rfl, inRange⟩ := writeRange_served served
      exact .write inRange
  | readRange start count =>
    simp only [perform]
    cases served : m.readRange start count with
    | error access => exact .refused
    | ok result =>
      obtain ⟨data, n⟩ := result
      obtain ⟨rfl, inRange⟩ := readRange_served served
      exact .readRange inRange
  | writeRange start values =>
    simp only [perform]
    cases served : m.writeRange start (values.map UInt8.ofInt) with
    | error access => exact .refused
    | ok n =>
      obtain ⟨rfl, inRange⟩ := writeRange_served served
      rw [List.length_map] at inRange
      exact .writeRange inRange
  | reset => exact .reset
  | dump => exact .dump
  | resetCounters => exact .resetCounters

theorem tally_countRead {t : Tally size} (watched : m.tally = some t) (start count : Nat) :
    (m.countRead start count).tally = some (t.read start count) := by
  obtain ⟨bytes, tally⟩ := m
  cases watched
  rfl

theorem tally_store {t : Tally size} (watched : m.tally = some t) (start : Nat) (data : List UInt8) :
    (m.store start data).tally = some (t.write start data.length) := by
  obtain ⟨bytes, tally⟩ := m
  cases watched
  rfl

/-- An access counts the bytes that it delivers and those that it stores, and no others. -/
theorem Performed.counted {access : Access} {outcome : Access.Outcome}
    (way : m.Performed access outcome n) {t : Tally size} (watched : m.tally = some t)
    (counting : access ≠ .resetCounters) :
    ∃ t', n.tally = some t' ∧
      t.Counted (delivered (access, outcome)) (stored (access, outcome)) t' := by
  cases way with
  | refused => cases access <;> exact ⟨t, watched, .nothing t⟩
  | read inRange =>
    have counted := Counted.read t inRange
    rw [Access.addresses_one] at counted
    exact ⟨_, tally_countRead watched _ _, counted⟩
  | readRange inRange => exact ⟨_, tally_countRead watched _ _, .read t inRange⟩
  | write inRange =>
    have counted := Counted.write t inRange
    rw [Access.addresses_one] at counted
    exact ⟨_, tally_store watched _ _, counted⟩
  | writeRange inRange =>
    refine ⟨_, tally_store watched _ _, ?_⟩
    rw [List.length_map]
    exact .write t inRange
  | reset => exact ⟨t, watched, .nothing t⟩
  | dump => exact ⟨t, watched, .nothing t⟩
  | resetCounters => exact absurd rfl counting

/-- The counters tell of the part of the log since they were last reset. -/
theorem counted_performAll (size : Nat) (accesses : List Access) :
    ∃ t, ((zeros size true).performAll accesses).2.tally = some t ∧
      let log := AccessLog.sinceResetCounters ((zeros size true).performAll accesses).1
      Tally.zero.Counted (log.flatMap delivered) (log.flatMap stored) t := by
  induction accesses using List.reverseRecOn with
  | nil => exact ⟨.zero, rfl, .nothing .zero⟩
  | append_singleton accesses access ih =>
    obtain ⟨t, watched, counted⟩ := ih
    rw [performAll_concat]
    generalize (zeros size true).performAll accesses = before at *
    obtain ⟨log, m⟩ := before
    dsimp only at *
    rw [AccessLog.sinceResetCounters, List.rtakeWhile_concat]
    by_cases counting : access = .resetCounters
    · subst counting
      refine ⟨.zero, ?_, .nothing .zero⟩
      simp only [perform, resetCounters, watched, Option.map_some]
    · obtain ⟨t', watched', more⟩ := (m.performed access).counted watched counting
      refine ⟨t', watched', ?_⟩
      rw [if_pos (by simpa using counting), List.flatMap_append, List.flatMap_append,
        List.flatMap_singleton, List.flatMap_singleton]
      exact counted.trans more

end Memory

/-! ### Totals -/

theorem sum_count {addresses : List Int} (inside : ∀ a ∈ addresses, 0 ≤ a ∧ a < size) :
    ∑ a : Fin size, addresses.count (a : Int) = addresses.length := by
  let address : Fin size ↪ Int := ⟨fun a => a, fun a b same => Fin.ext (by simpa using same)⟩
  have all : ∀ a ∈ (addresses : Multiset Int), a ∈ Finset.univ.map address := by
    intro a member
    obtain ⟨nonneg, below⟩ := inside a member
    rw [Finset.mem_map]
    exact ⟨⟨a.toNat, by omega⟩, Finset.mem_univ _, Int.toNat_of_nonneg nonneg⟩
  have total := Multiset.sum_count_eq_card all
  simp only [Finset.sum_map, Multiset.coe_count, Multiset.coe_card] at total
  exact total

theorem foldl_toList {counters : Vector Nat size} {addresses : List Int}
    (counted : ∀ a : Fin size, counters[a] = addresses.count (a : Int))
    (inside : ∀ a ∈ addresses, 0 ≤ a ∧ a < size) :
    counters.toList.foldl (· + ·) 0 = addresses.length := by
  have listed : counters.toList = List.ofFn fun a : Fin size => addresses.count (a : Int) := by
    refine List.ext_getElem (by simp) fun k _ _ => ?_
    rw [List.getElem_ofFn, ← counted]
    exact Vector.getElem_toList _
  rw [← List.sum_eq_foldl, listed, List.sum_ofFn, sum_count inside]

/-! ### Ranges and single bytes -/

namespace Memory

theorem store_cons (m : Memory size) (start : Nat) (b : UInt8) (data : List UInt8) :
    m.store start (b :: data) = (m.store start [b]).store (start + 1) data := by
  obtain ⟨bytes, tally⟩ := m
  cases tally <;> rfl

theorem countRead_succ (m : Memory size) (start count : Nat) :
    m.countRead start (count + 1) = (m.countRead start 1).countRead (start + 1) count := by
  obtain ⟨bytes, tally⟩ := m
  cases tally <;> rfl

theorem perform_read_of_inside (m : Memory size) {address : Int} (nonneg : 0 ≤ address)
    (inside : address < size) :
    m.perform (.read address) = (.ok [m.byteAt address.toNat], m.countRead address.toNat 1) := by
  have inRange : outOfRange? size address 1 = none := outOfRange?_eq_none_iff.2 (by omega)
  simp only [perform, read, inRange]
  rfl

theorem perform_write_of_inside (m : Memory size) {address : Int} (nonneg : 0 ≤ address)
    (inside : address < size) (value : Int) :
    m.perform (.write address value) = (.ok [], m.store address.toNat [UInt8.ofInt value]) := by
  have inRange : outOfRange? size address 1 = none := outOfRange?_eq_none_iff.2 (by omega)
  simp only [perform, write, inRange]
  rfl

theorem perform_readRange_of_inRange (m : Memory size) {start count : Int}
    (inRange : InRange size start count.toNat) :
    m.perform (.readRange start count) =
      (.ok ((List.range' start.toNat count.toNat).map m.byteAt),
        m.countRead start.toNat count.toNat) := by
  by_cases empty : count ≤ 0
  · have nothing : count.toNat = 0 := by omega
    rw [nothing, countRead_zero]
    simp only [perform, readRange, if_pos empty]
    rfl
  · rw [InRange] at inRange
    have inside : outOfRange? size start count.toNat = none :=
      outOfRange?_eq_none_iff.2 (by omega)
    simp only [perform, readRange, if_neg empty, inside]
    rfl

theorem perform_writeRange_of_inRange (m : Memory size) {start : Int} {values : List Int}
    (inRange : InRange size start values.length) :
    m.perform (.writeRange start values) =
      (.ok [], m.store start.toNat (values.map UInt8.ofInt)) := by
  cases values with
  | nil =>
    rw [List.map_nil, store_nil]
    rfl
  | cons value values =>
    have inside : outOfRange? size start ((value :: values).map UInt8.ofInt).length = none := by
      rw [List.length_map, outOfRange?_eq_none_iff]
      rw [InRange, List.length_cons] at inRange
      rw [List.length_cons]
      omega
    simp only [perform, writeRange, inside]
    rfl

theorem performAll_reads (m : Memory size) {start : Int} {count : Nat}
    (inRange : InRange size start count) :
    (m.performAll ((addresses start count).map .read)).1.map Prod.snd =
        ((List.range' start.toNat count).map m.byteAt).map (fun b => .ok [b]) ∧
      (m.performAll ((addresses start count).map .read)).2 = m.countRead start.toNat count := by
  induction count generalizing m start with
  | zero => exact ⟨rfl, (m.countRead_zero _).symm⟩
  | succ count ih =>
    rw [InRange] at inRange
    have next : (start + 1).toNat = start.toNat + 1 := by omega
    have rest : InRange size (start + 1) count := .inl (by omega)
    have later := ih (m.countRead start.toNat 1) rest
    -- Reading counts, and leaves the bytes that are read later as they are.
    have same : (m.countRead start.toNat 1).byteAt = m.byteAt := rfl
    rw [next, same, ← countRead_succ] at later
    rw [Access.addresses_succ, List.map_cons,
      performAll_cons (perform_read_of_inside m (by omega) (by omega))]
    exact ⟨congrArg (_ :: ·) later.1, later.2⟩

theorem performAll_writes (m : Memory size) {start : Int} {values : List Int}
    (inRange : InRange size start values.length) :
    (m.performAll ((addresses start values.length).zipWith .write values)).1.map Prod.snd =
        values.map (fun _ => .ok []) ∧
      (m.performAll ((addresses start values.length).zipWith .write values)).2 =
        m.store start.toNat (values.map UInt8.ofInt) := by
  induction values generalizing m start with
  | nil => exact ⟨rfl, (m.store_nil _).symm⟩
  | cons value values ih =>
    rw [InRange, List.length_cons] at inRange
    have next : (start + 1).toNat = start.toNat + 1 := by omega
    have rest : InRange size (start + 1) values.length := .inl (by omega)
    have later := ih (m.store start.toNat [UInt8.ofInt value]) rest
    rw [next, ← store_cons] at later
    rw [List.length_cons, Access.addresses_succ, List.zipWith_cons_cons,
      performAll_cons (perform_write_of_inside m (by omega) (by omega) value)]
    exact ⟨congrArg (_ :: ·) later.1, later.2⟩

/-! ### Watched and plain memories -/

/-- What some accesses leave of a watched memory, next to what they leave of a plain one. -/
structure Watched (size : Nat) (accesses : List Access) (t : Tally size) : Prop where
  -- Outcomes and bytes are those of the plain memory.
  refines : (zeros size true).performAll accesses =
    (((zeros size false).performAll accesses).1,
      { ((zeros size false).performAll accesses).2 with tally := some t })
  reads : ∀ a : Fin size, t.reads[a] =
    (((zeros size true).performAll accesses).1.sinceResetCounters.flatMap delivered).count (a : Int)
  writes : ∀ a : Fin size, t.writes[a] =
    (((zeros size true).performAll accesses).1.sinceResetCounters.flatMap stored).count (a : Int)
  totalReads : t.totalReads =
    (((zeros size true).performAll accesses).1.sinceResetCounters.flatMap delivered).length
  totalWrites : t.totalWrites =
    (((zeros size true).performAll accesses).1.sinceResetCounters.flatMap stored).length

theorem exists_watched (size : Nat) (accesses : List Access) :
    ∃ t, Watched size accesses t := by
  obtain ⟨t, watched, counted⟩ := counted_performAll size accesses
  have bare : (zeros size true).bare = zeros size false := rfl
  have zero (a : Fin size) : (Tally.zero : Tally size).reads[a] = 0 ∧
      (Tally.zero : Tally size).writes[a] = 0 := by simp [Tally.zero]
  have reads := fun a => (counted.reads a).trans (by rw [(zero a).1, Nat.zero_add])
  have writes := fun a => (counted.writes a).trans (by rw [(zero a).2, Nat.zero_add])
  refine ⟨t, ?_, reads, writes, ?_, ?_⟩
  · rw [← bare, performAll_bare]
    refine Prod.ext rfl ?_
    dsimp only
    rw [← watched]
    rfl
  · exact foldl_toList reads fun a member => counted.inside a (List.mem_append_left _ member)
  · exact foldl_toList writes fun a member => counted.inside a (List.mem_append_right _ member)

/-- A watched memory answers as a plain one and its counters are exact; and an access to a range
inside memory comes to the accesses to its bytes. All this is so for the checks and effects of either
memory, of which nothing is left if the access is refused. -/
theorem watched_refines (size : Nat) :
    (∀ accesses, ∃ t, Watched size accesses t) ∧
    (∀ (m : Memory size) (access : Access),
      access = .reset ∨ (∃ error, (m.perform access).1 = .error error) →
        (m.perform access).2.tally = m.tally) ∧
    (∀ (m : Memory size) (start : Int) (values : List Int), InRange size start values.length →
      (m.perform (.writeRange start values)).1 = .ok [] ∧
        (m.performAll (Access.singly (.writeRange start values))).1.map Prod.snd =
          values.map (fun _ => .ok []) ∧
        (m.performAll (Access.singly (.writeRange start values))).2 =
          (m.perform (.writeRange start values)).2) ∧
    (∀ (m : Memory size) (start count : Int), InRange size start count.toNat →
      ∃ data, (m.perform (.readRange start count)).1 = .ok data ∧
        (m.performAll (Access.singly (.readRange start count))).1.map Prod.snd =
          data.map (fun b => .ok [b]) ∧
        (m.performAll (Access.singly (.readRange start count))).2 =
          (m.perform (.readRange start count)).2) ∧
    ∀ access : Access, (∀ m : Memory size, access.call.made m = m.perform access) ∧
      Procedure.Atomic (access.call : MemoryCall size (List UInt8)) := by
  refine ⟨exists_watched size, ?_, ?_, ?_, fun access => ⟨access.made_call, access.atomic_call⟩⟩
  · intro m access quiet
    rcases quiet with rfl | ⟨error, refused⟩
    · rfl
    · have way := m.performed access
      generalize (m.perform access).2 = left at way
      rw [refused] at way
      cases way
      rfl
  · intro m start values inRange
    rw [perform_writeRange_of_inRange m inRange]
    exact ⟨rfl, performAll_writes m inRange⟩
  · intro m start count inRange
    rw [perform_readRange_of_inRange m inRange]
    exact ⟨_, rfl, performAll_reads m inRange⟩

/-- Four bytes, to which one access is refused and of which one is written and read twice. -/
def someAccesses : List Access :=
  [.write 1 7, .resetCounters, .writeRange 1 [300, -1], .readRange 3 2, .write 1 9, .reset,
    .readRange 0 3, .read 1]

theorem watched_refines_four : InRange 4 1 2 ∧
    ∃ t, Watched 4 someAccesses t ∧ t.reads = #v[1, 2, 1, 0] ∧ t.writes = #v[0, 2, 1, 0] ∧
      (Memory.performAll (zeros 4 true) (Access.singly (.writeRange 1 [300, -1]))).2 =
        ((zeros 4 true).perform (.writeRange 1 [300, -1])).2 := by
  have inRange : InRange 4 1 2 := .inl (by decide)
  obtain ⟨t, watched⟩ := (watched_refines 4).1 someAccesses
  have singly := (watched_refines 4).2.2.1 (zeros 4 true) 1 [300, -1] inRange
  have tally : some t = ((zeros 4 true).performAll someAccesses).2.tally := by
    rw [watched.refines]
  have known : ((zeros 4 true).performAll someAccesses).2.tally =
      some ⟨#v[1, 2, 1, 0], #v[0, 2, 1, 0]⟩ := by decide +kernel
  rw [known] at tally
  cases tally
  exact ⟨inRange, _, watched, rfl, rfl, singly.2.2⟩

end Memory

end Chip8
