import Chip8.Proofs.Counters
import Chip8.Proofs.MemoryTraffic
import Chip8.Proofs.Run

/-! The cache of decoded instructions agrees with memory.

A cache is sound for a machine if each of its entries is what memory holds at that address. Every
step keeps it so, also one whose instruction overwrites itself, and a sound cache changes neither
the result of a step nor what the step leaves, counters and the cache itself apart.
-/

set_option autoImplicit false

namespace Chip8

variable {σ : Type} {size : Nat}

/-! ### Instructions in memory -/

namespace Machine

theorem decoded_congr {m n : Machine size} {a : Int}
    (high : n.memory.byteAt a.toNat = m.memory.byteAt a.toNat)
    (low : n.memory.byteAt (a + 1).toNat = m.memory.byteAt (a + 1).toNat) :
    n.decoded a = m.decoded a := by
  simp only [decoded, readWord_fst, high, low]

@[simp] theorem decoded_bare (m : Machine size) (a : Int) : m.bare.decoded a = m.decoded a :=
  decoded_congr rfl rfl

theorem decoded_of_bare_eq {m n : Machine size} (same : n.bare = m.bare) (a : Int) :
    n.decoded a = m.decoded a := by
  rw [← decoded_bare n, same, decoded_bare]

theorem inside_of_decoded {m : Machine size} {a : Int} {d : Decoded} (found : m.decoded a = .ok d) :
    0 ≤ a ∧ a + 1 < size := by
  simp only [decoded, readWord_fst] at found
  cases first : outOfRange? size a 1 with
  | some access => simp [first] at found
  | none =>
    cases second : outOfRange? size (a + 1) 1 with
    | some access => simp [first, second] at found
    | none =>
      rw [outOfRange?_eq_none_iff] at first second
      omega

end Machine

/-! ### Sound caches -/

namespace DecodeCache

def Sound (cache : DecodeCache) (m : Machine size) : Prop :=
  ∀ a d, cache[a]? = some d → m.decoded a = .ok d

theorem sound_empty (m : Machine size) : Sound ∅ m := by
  intro a d found
  simp at found

theorem Sound.of_bare_eq {cache : DecodeCache} {m n : Machine size} (sound : cache.Sound m)
    (same : n.bare = m.bare) : cache.Sound n := by
  intro a d found
  rw [Machine.decoded_of_bare_eq same, sound a d found]

theorem Sound.insert {cache : DecodeCache} {m : Machine size} (sound : cache.Sound m) {pc : Int}
    {decoded : Decoded} (found : m.decoded pc = .ok decoded) :
    DecodeCache.Sound (Std.HashMap.insert cache pc decoded) m := by
  intro a d entry
  rw [Std.HashMap.getElem?_insert] at entry
  split at entry
  · next here =>
    cases entry
    rw [← LawfulBEq.eq_of_beq here, found]
  · exact sound a d entry

/-- Forgetting what overlaps a range keeps a cache sound when only that range changes. -/
theorem Sound.forget {cache : DecodeCache} {m n : Machine size} (sound : cache.Sound m)
    {start count : Int}
    (kept : ∀ a : Nat, ¬ (start ≤ a ∧ a < start + count) → n.memory.byteAt a = m.memory.byteAt a) :
    (cache.forget start count).Sound n := by
  intro a d entry
  rw [getElem?_forget] at entry
  split at entry
  · cases entry
  · next apart =>
    have found := sound a d entry
    have inside := Machine.inside_of_decoded found
    rw [← found]
    -- An instruction is two bytes long, and an entry that is left overlaps the range with neither.
    apply Machine.decoded_congr
    · exact kept _ (by omega)
    · exact kept _ (by omega)

theorem getElem?_foldl_forget {stores : List Store} {cache : DecodeCache} {a : Int} {d : Decoded}
    (entry : (stores.foldl (fun cache store => cache.forget store.address 1) cache)[a]? = some d) :
    cache[a]? = some d ∧
      ∀ s ∈ stores, a ≠ (s.address : Int) ∧ a + 1 ≠ (s.address : Int) := by
  -- Each store forgets from the cache that the stores before it left.
  induction stores generalizing cache with
  | nil => exact ⟨entry, nofun⟩
  | cons store stores ih =>
    obtain ⟨earlier, apart⟩ := ih entry
    rw [getElem?_forget] at earlier
    split at earlier
    · cases earlier
    · next here =>
      refine ⟨earlier, fun s member => ?_⟩
      rcases List.mem_cons.1 member with rfl | member
      · omega
      · exact apart s member

theorem Sound.foldl_forget {cache : DecodeCache} {m n : Machine size} (sound : cache.Sound m)
    {instruction : Instruction} {stores : List Store}
    (done : m.execute instruction = .ok (n, stores)) :
    DecodeCache.Sound (stores.foldl (fun cache store => cache.forget store.address 1) cache) n := by
  intro a d entry
  obtain ⟨earlier, apart⟩ := getElem?_foldl_forget entry
  have found := sound a d earlier
  have inside := Machine.inside_of_decoded found
  rw [← found]
  apply Machine.decoded_congr
  · refine Machine.byteAt_execute_of_not_stored done fun s member same => ?_
    have := (apart s member).1
    omega
  · refine Machine.byteAt_execute_of_not_stored done fun s member same => ?_
    have := (apart s member).2
    omega

end DecodeCache

namespace Interpreter

def Coherent (i : Interpreter σ size) : Prop :=
  ∀ cache, i.cache = some cache → cache.Sound i.machine

theorem Coherent.of_bytes_eq {i j : Interpreter σ size} (coherent : i.Coherent)
    (bytes : j.machine.memory.bytes = i.machine.memory.bytes) (cache : j.cache = i.cache) :
    j.Coherent := by
  intro found present a d entry
  rw [← coherent found (cache ▸ present) a d entry]
  exact Machine.decoded_congr (by simp only [Memory.byteAt, bytes])
    (by simp only [Memory.byteAt, bytes])

theorem Coherent.stored {i j : Interpreter σ size} (coherent : i.Coherent) {start : Int}
    {data : List UInt8} (inside : 0 ≤ start ∨ data = [])
    (bytes : j.machine.memory.bytes = (i.machine.memory.store start.toNat data).bytes)
    (cache : j.cache = i.cache.map (·.forget start data.length)) : j.Coherent := by
  intro found present
  rw [cache] at present
  obtain ⟨before, held, rfl⟩ := Option.map_eq_some_iff.1 present
  refine (coherent before held).forget fun a apart => ?_
  have stored : j.machine.memory.byteAt a = (i.machine.memory.store start.toNat data).byteAt a := by
    simp only [Memory.byteAt, bytes]
  rw [stored]
  apply Memory.byteAt_store_of_ne
  rcases inside with inside | rfl
  · omega
  · rw [List.length_nil]
    omega

/-- An interpreter without a cache and without the counters of memory. -/
def bare (i : Interpreter σ size) : Interpreter σ size :=
  { i with machine := i.machine.bare, cache := none }

@[simp] theorem machine_bare (i : Interpreter σ size) : i.bare.machine = i.machine.bare := rfl

/-! ### Fetching -/

/-- Fetching leaves all but the counters of reads. -/
theorem fetch_leaves {i j : Interpreter σ size} {pc : Int} {result : Except Cause Decoded}
    (fetch : i.fetch pc = (result, j)) :
    j.machine.bare = i.machine.bare ∧
      j.machine.memory.tally.map (·.writes) = i.machine.memory.tally.map (·.writes) := by
  cases look : i.cache.bind (·[pc]?) with
  | some decoded =>
    rw [fetch_of_hit look] at fetch
    cases fetch
    exact ⟨rfl, rfl⟩
  | none =>
    rw [fetch_of_miss look] at fetch
    cases fetch
    exact ⟨i.machine.bare_readWord pc, i.machine.writes_readWord pc⟩

/-- With a sound cache, fetching answers with what memory holds. -/
theorem Coherent.fetch {i j : Interpreter σ size} (coherent : i.Coherent) {pc : Int}
    {result : Except Cause Decoded} (fetch : i.fetch pc = (result, j)) :
    result = i.machine.decoded pc ∧ j.Coherent ∧ j.bare = i.bare := by
  cases look : i.cache.bind (·[pc]?) with
  | some decoded =>
    -- Memory is not read, and a sound cache has what is there.
    rw [fetch_of_hit look] at fetch
    cases fetch
    obtain ⟨cache, present, entry⟩ := Option.bind_eq_some_iff.1 look
    exact ⟨(coherent cache present pc decoded entry).symm, coherent, rfl⟩
  | none =>
    rw [fetch_of_miss look] at fetch
    cases fetch
    have same := i.machine.bare_readWord pc
    refine ⟨rfl, fun cache present => ?_, ?_⟩
    · refine DecodeCache.Sound.of_bare_eq ?_ same
      cases read : i.machine.decoded pc with
      | error cause =>
        simp only [read, kept] at present
        exact coherent cache present
      | ok decoded =>
        simp only [read, kept, Option.map_eq_some_iff] at present
        obtain ⟨before, present, rfl⟩ := present
        exact (coherent before present).insert read
    · simp only [bare, same]

theorem fetch_bare (i : Interpreter σ size) (pc : Int) :
    i.bare.fetch pc = (i.machine.decoded pc, i.bare) := by
  rw [fetch_of_miss (i := i.bare) rfl]
  simp only [machine_bare, Machine.decoded_bare, Machine.readWord_bare]
  cases i.machine.decoded pc <;> rfl

/-! ### Steps -/

theorem ask_bare (i : Interpreter σ size) (pc : Int) (word : Word) :
    i.bare.ask pc word = ((i.ask pc word).1, (i.ask pc word).2.bare) := by
  unfold ask
  simp only [bare]
  split <;> rfl

theorem tell_bare (i : Interpreter σ size) (store : Store) :
    i.bare.tell store = (i.tell store).bare := by
  unfold tell
  simp only [bare]
  split <;> rfl

theorem foldl_tell_bare (stores : List Store) (i : Interpreter σ size) :
    stores.foldl tell i.bare = (stores.foldl tell i).bare := by
  induction stores generalizing i with
  | nil => rfl
  | cons store stores ih => rw [List.foldl_cons, List.foldl_cons, tell_bare, ih]

theorem noteStores_bare (i : Interpreter σ size) (stores : List Store) :
    i.bare.noteStores stores = (i.noteStores stores).bare :=
  foldl_tell_bare stores { i with cache := i.cache.map _ }

theorem Coherent.executed {i : Interpreter σ size} (coherent : i.Coherent)
    {instruction : Instruction} {machine : Machine size} {stores : List Store}
    (done : i.machine.execute instruction = .ok (machine, stores)) :
    ({ i with machine }.noteStores stores).Coherent := by
  intro cache present
  rw [cache_noteStores] at present
  obtain ⟨before, held, rfl⟩ := Option.map_eq_some_iff.1 present
  rw [machine_noteStores]
  exact (coherent before held).foldl_forget done

theorem Coherent.passed {i : Interpreter σ size} (coherent : i.Coherent) (pc : Int) :
    (i.passed pc).Coherent :=
  coherent.of_bytes_eq rfl rfl

/-- A step with a sound cache leaves a sound cache, and does what the step without one does. -/
theorem Coherent.step {i j : Interpreter σ size} (coherent : i.Coherent)
    {result : Except Fault Bool} (step : i.step = (result, j)) :
    j.Coherent ∧ i.bare.step = (result, j.bare) := by
  have fetch_bare {result fetched} (fetch : i.fetch i.machine.processor.pc = (result, fetched)) :
      i.bare.fetch i.machine.processor.pc = (result, fetched.bare) := by
    obtain ⟨same, -, bare⟩ := coherent.fetch fetch
    rw [i.fetch_bare, same, bare]
  have ask_bare {word} {fetched asked : Interpreter σ size} {go}
      (ask : fetched.ask i.machine.processor.pc word = (go, asked)) :
      fetched.bare.ask i.machine.processor.pc word = (go, asked.bare) := by
    rw [fetched.ask_bare, ask]
  -- With a sound cache a hit and a miss fetch the same instruction, so the step without a cache
  -- goes the same way.
  cases stepped step with
  | polled waiting =>
    refine ⟨coherent.of_bytes_eq (by rw [Machine.memory_poll]) rfl, Stepped.step_eq ?_⟩
    have polled := Stepped.polled (i := i.bare) waiting
    rw [machine_bare, Machine.poll_bare] at polled
    exact polled
  | unfetched active fetch =>
    have unfetched := Stepped.unfetched (i := i.bare) active (fetch_bare fetch)
    exact ⟨(coherent.fetch fetch).2.1, unfetched.step_eq⟩
  | vetoed active fetch ask =>
    have vetoed := Stepped.vetoed (i := i.bare) active (fetch_bare fetch) (ask_bare ask)
    refine ⟨?_, vetoed.step_eq⟩
    rw [ask_keeps ask]
    exact (coherent.fetch fetch).2.1.of_bytes_eq rfl rfl
  | failed active fetch ask failed =>
    have failed_bare := congrArg Machine.bareEffect failed
    rw [← Machine.execute_bare] at failed_bare
    have failed := Stepped.failed (i := i.bare) active (fetch_bare fetch) (ask_bare ask) failed_bare
    refine ⟨Coherent.passed ?_ _, failed.step_eq⟩
    rw [ask_keeps ask]
    exact (coherent.fetch fetch).2.1.of_bytes_eq rfl rfl
  | executed active fetch ask done =>
    have done_bare := congrArg Machine.bareEffect done
    rw [← Machine.execute_bare] at done_bare
    have executed := Stepped.executed (i := i.bare) active (fetch_bare fetch) (ask_bare ask) done_bare
    refine ⟨?_, executed.step_eq.trans ?_⟩
    -- The instruction may have overwritten itself: its own entry is forgotten with its stores.
    · refine Coherent.executed (Coherent.passed ?_ i.machine.processor.pc) done
      rw [ask_keeps ask]
      exact (coherent.fetch fetch).2.1.of_bytes_eq rfl rfl
    · rw [← noteStores_bare]
      rfl

theorem Coherent.ran {i j : Interpreter σ size} (coherent : i.Coherent) {steps count : Nat}
    {halt : Halt} (way : Ran i steps halt count j) :
    j.Coherent ∧ Ran i.bare steps halt count j.bare := by
  induction way with
  | completed => exact ⟨coherent, .completed⟩
  | failed step =>
    obtain ⟨sound, bare⟩ := coherent.step step
    exact ⟨sound, .failed bare⟩
  | vetoed step =>
    obtain ⟨sound, bare⟩ := coherent.step step
    exact ⟨sound, .vetoed bare⟩
  | requested step requested =>
    obtain ⟨sound, bare⟩ := coherent.step step
    exact ⟨sound, .requested bare requested⟩
  | more step quiet rest ih =>
    obtain ⟨sound, bare⟩ := coherent.step step
    obtain ⟨left, bareRest⟩ := ih sound
    exact ⟨left, .more bare quiet bareRest⟩

end Interpreter

end Chip8
