import Chip8.Proofs.Coherence

/-! The machine on its own, without an interpreter around it.

A machine advances by a look at its keypad or by the instruction that memory holds at the program
counter. Every interpreter whose cache is sound does just that, unless a hook keeps it from it.
-/

set_option autoImplicit false

namespace Chip8

variable {σ : Type} {size : Nat}

namespace Machine

def past (m : Machine size) : Machine size :=
  { m with processor := { m.processor with pc := m.processor.pc + 2 } }

def advance (m : Machine size) : Except Fault (Machine size × List Store) :=
  if m.processor.waiting then .ok (m.poll, [])
  else
    match m.decoded m.processor.pc with
    | .error cause => .error ((Fault.ofCause cause).locate m.processor.pc none)
    | .ok decoded =>
      match m.past.execute decoded.instruction with
      | .error cause =>
        .error ((Fault.ofCause cause).locate m.processor.pc (some decoded.word.toNat))
      | .ok result => .ok result

def after (m : Machine size) : (steps : Nat) → Except Fault (Machine size)
  | 0 => .ok m
  | steps + 1 =>
    match m.advance with
    | .error fault => .error fault
    | .ok (n, _) => n.after steps

variable {m n : Machine size}

theorem advance_of_waiting (waiting : m.processor.waiting = true) : m.advance = .ok (m.poll, []) := by
  rw [advance, if_pos waiting]

theorem advance_of_undecoded {cause : Cause} (active : m.processor.waiting = false)
    (undecoded : m.decoded m.processor.pc = .error cause) :
    m.advance = .error ((Fault.ofCause cause).locate m.processor.pc none) := by
  rw [advance, if_neg (by simp [active]), undecoded]

theorem advance_of_failed {decoded : Decoded} {cause : Cause} (active : m.processor.waiting = false)
    (found : m.decoded m.processor.pc = .ok decoded)
    (failed : m.past.execute decoded.instruction = .error cause) :
    m.advance =
      .error ((Fault.ofCause cause).locate m.processor.pc (some decoded.word.toNat)) := by
  rw [advance, if_neg (by simp [active]), found]
  simp only [failed]

theorem advance_of_executed {decoded : Decoded} {result : Machine size × List Store}
    (active : m.processor.waiting = false) (found : m.decoded m.processor.pc = .ok decoded)
    (done : m.past.execute decoded.instruction = .ok result) : m.advance = .ok result := by
  rw [advance, if_neg (by simp [active]), found]
  simp only [done]

theorem byteAt_advance_of_stored {stores : List Store} (moved : m.advance = .ok (n, stores))
    {store : Store} (member : store ∈ stores) : n.memory.byteAt store.address = store.value := by
  unfold advance at moved
  split at moved
  · cases moved
    cases member
  · split at moved
    · cases moved
    · split at moved
      · cases moved
      · next result done =>
        cases moved
        exact byteAt_execute_of_stored done member

theorem after_succ {stores : List Store} (moved : m.advance = .ok (n, stores)) (steps : Nat) :
    m.after (steps + 1) = n.after steps := by
  rw [after, moved]

theorem after_succ_of_error {fault : Fault} (failed : m.advance = .error fault) (steps : Nat) :
    m.after (steps + 1) = .error fault := by
  rw [after, failed]

theorem after_add {first : Nat} (reached : m.after first = .ok n) (steps : Nat) :
    m.after (first + steps) = n.after steps := by
  induction first generalizing m with
  | zero =>
    cases reached
    rw [Nat.zero_add]
  | succ first ih =>
    cases moved : m.advance with
    | error fault =>
      rw [after_succ_of_error moved] at reached
      cases reached
    | ok result =>
      obtain ⟨k, stores⟩ := result
      rw [after_succ moved] at reached
      rw [Nat.add_right_comm, after_succ moved, ih reached]

theorem after_succ_of_reached {steps : Nat} {k : Machine size} {stores : List Store}
    (reached : m.after steps = .ok n) (moved : n.advance = .ok (k, stores)) :
    m.after (steps + 1) = .ok k := by
  rw [after_add reached, after_succ moved]
  rfl

theorem exists_after_of_le {steps earlier : Nat} (reached : m.after steps = .ok n)
    (before : earlier ≤ steps) : ∃ k, m.after earlier = .ok k := by
  induction steps generalizing m earlier with
  | zero =>
    obtain rfl := Nat.le_zero.1 before
    exact ⟨n, reached⟩
  | succ steps ih =>
    cases earlier with
    | zero => exact ⟨m, rfl⟩
    | succ earlier =>
      cases moved : m.advance with
      | error fault =>
        rw [after_succ_of_error moved] at reached
        cases reached
      | ok result =>
        obtain ⟨k, stores⟩ := result
        rw [after_succ moved] at reached ⊢
        exact ih reached (Nat.le_of_succ_le_succ before)

theorem after_of_failed {first steps : Nat} {fault : Fault} (reached : m.after first = .ok n)
    (failed : n.advance = .error fault) (beyond : first < steps) :
    m.after steps = .error fault := by
  obtain ⟨rest, rfl⟩ := Nat.exists_eq_add_of_lt beyond
  rw [Nat.add_assoc, after_add reached, after_succ_of_error failed]

end Machine

namespace Interpreter

inductive Advanced (i : Interpreter σ size) : Except Fault Bool → Interpreter σ size → Prop where
  | polled : i.machine.processor.waiting = true →
      Advanced i (.ok true) { i with machine := i.machine.poll }
  | unfetched {cause : Cause} : i.machine.processor.waiting = false →
      i.machine.decoded i.machine.processor.pc = .error cause →
      Advanced i (.error ((Fault.ofCause cause).locate i.machine.processor.pc none)) i
  | vetoed {decoded : Decoded} {asked : Interpreter σ size} :
      i.machine.processor.waiting = false →
      i.machine.decoded i.machine.processor.pc = .ok decoded →
      i.ask i.machine.processor.pc decoded.word = (false, asked) → Advanced i (.ok false) asked
  | failed {decoded : Decoded} {asked : Interpreter σ size} {cause : Cause} :
      i.machine.processor.waiting = false →
      i.machine.decoded i.machine.processor.pc = .ok decoded →
      i.ask i.machine.processor.pc decoded.word = (true, asked) →
      i.machine.past.execute decoded.instruction = .error cause →
      Advanced i
        (.error ((Fault.ofCause cause).locate i.machine.processor.pc (some decoded.word.toNat)))
        { asked with machine := i.machine.past }
  | executed {decoded : Decoded} {asked : Interpreter σ size} {machine : Machine size}
      {stores : List Store} :
      i.machine.processor.waiting = false →
      i.machine.decoded i.machine.processor.pc = .ok decoded →
      i.ask i.machine.processor.pc decoded.word = (true, asked) →
      i.machine.past.execute decoded.instruction = .ok (machine, stores) →
      Advanced i (.ok true) ({ asked with machine }.noteStores stores)

theorem advanced {i j : Interpreter σ size} {result : Except Fault Bool}
    (step : i.bare.step = (result, j)) : Advanced i.bare result j := by
  -- Without a cache and counters, fetching is a look at memory that leaves nothing behind.
  have found {result fetched}
      (fetch : i.bare.fetch i.bare.machine.processor.pc = (result, fetched)) :
      fetched = i.bare ∧ i.bare.machine.decoded i.bare.machine.processor.pc = result := by
    rw [fetch_bare] at fetch
    cases fetch
    exact ⟨rfl, Machine.decoded_bare _ _⟩
  cases stepped step with
  | polled waiting => exact .polled waiting
  | unfetched active fetch =>
    obtain ⟨rfl, undecoded⟩ := found fetch
    exact .unfetched active undecoded
  | vetoed active fetch ask =>
    obtain ⟨rfl, decoded⟩ := found fetch
    exact .vetoed active decoded ask
  | failed active fetch ask failed =>
    obtain ⟨rfl, decoded⟩ := found fetch
    have asked := ask_keeps ask
    rw [asked] at failed ⊢
    exact .failed active decoded (asked ▸ ask) failed
  | executed active fetch ask done =>
    obtain ⟨rfl, decoded⟩ := found fetch
    have asked := ask_keeps ask
    rw [asked] at done
    exact .executed active decoded ask done

/-- A step that ran left what the machine on its own comes to. -/
theorem Coherent.advance {i j : Interpreter σ size} (coherent : i.Coherent)
    (step : i.step = (.ok true, j)) :
    ∃ stores, i.machine.bare.advance = .ok (j.machine.bare, stores) := by
  have bare := (coherent.step step).2
  -- What the step left must be a variable for the cases of a step to tell it.
  generalize left : j.bare = k at bare
  have same : j.machine.bare = k.machine := congrArg Interpreter.machine left
  rw [same]
  cases advanced bare with
  | polled waiting => exact ⟨[], Machine.advance_of_waiting waiting⟩
  | executed active decoded ask done =>
    rw [machine_noteStores]
    exact ⟨_, Machine.advance_of_executed active decoded done⟩

end Interpreter

end Chip8
