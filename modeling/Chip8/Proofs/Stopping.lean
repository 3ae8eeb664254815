import Chip8.Proofs.Unbroken
import Mathlib.Order.Bounds.Defs

/-! Where a run of an emulator ends, and what it says about that.

A run of at most so many steps ends before the first instruction with a breakpoint, after the first
step that writes a watched byte, or at its limit, whichever comes first in the run that nothing
stops. Its event names the cause. It fails where that run fails, if it gets there.
-/

set_option autoImplicit false

namespace Chip8.Emulator

open Interpreter (Halted)

variable {e left : Emulator} {limit k : Nat}

/-! ### How a run ended -/

/-- How a run of at most `limit` steps ended, told by the run that nothing stops. -/
inductive Ended (e left : Emulator) (limit : Nat) : Except Fault StopEvent → Prop where
  | completed {event : StopEvent} (undisturbed : e.debugger.Undisturbed e.unbroken limit)
      (reached : e.unbroken limit = .ok left.machine.bare)
      (total : left.totalSteps = e.totalSteps + limit)
      (reason : event.reason = .stepLimit left.processor.pc) : Ended e left limit (.ok event)
  | vetoed {event : StopEvent} {count : Nat} {decoded : Decoded} (before : count < limit)
      (undisturbed : e.debugger.Undisturbed e.unbroken count)
      (stops : e.debugger.StopsBefore e.unbroken count)
      (reached : e.unbroken count = .ok left.machine.bare)
      (total : left.totalSteps = e.totalSteps + count)
      (active : left.processor.waiting = false)
      (found : left.machine.bare.decoded left.processor.pc = .ok decoded)
      (reason : event.reason = .breakpoint left.processor.pc) : Ended e left limit (.ok event)
  | requested {event : StopEvent} {count : Nat} {store : Store} (before : count < limit)
      (undisturbed : e.debugger.Undisturbed e.unbroken count)
      (free : ¬ e.debugger.StopsBefore e.unbroken count)
      (hits : e.debugger.HitsAt e.unbroken count store)
      -- The step runs to its end before the run stops.
      (reached : e.unbroken (count + 1) = .ok left.machine.bare)
      (total : left.totalSteps = e.totalSteps + (count + 1))
      (stored : left.machine.memory.byteAt store.address = store.value)
      (reason : event.reason = .write store.address store.value.toNat) :
      Ended e left limit (.ok event)
  | failed {fault : Fault} {count : Nat} {m : Machine memorySize} (before : count < limit)
      (undisturbed : e.debugger.Undisturbed e.unbroken count)
      (reached : e.unbroken count = .ok m) (failed : e.unbroken (count + 1) = .error fault)
      (unchecked : e.debugger.StopsBefore e.unbroken count →
        ∃ cause, m.decoded m.processor.pc = .error cause) :
      Ended e left limit (.error fault)

theorem Ready.halted (ready : e.Ready) (limit : Nat) :
    ∃ halt count i, Interpreter.Ran e.interpreter limit halt count i ∧
      Halted e.interpreter i limit halt count := by
  obtain ⟨halt, count, i, way⟩ := e.interpreter.exists_ran limit
  exact ⟨halt, count, i, way, Interpreter.Ready.halted ready way⟩

/-- Every run of an emulator that hosts can meet ended in one of these ways. -/
theorem Ready.ended (ready : e.Ready) {limit : Int} {result : Except Fault StopEvent}
    (run : e.runSteps limit = (result, left)) : e.Ended left limit.toNat result := by
  have states : e.interpreter.machine.bare.after = e.unbroken := ready.unbroken_eq.symm
  obtain ⟨halt, count, i, way, halted⟩ := ready.halted limit.toNat
  cases halted with
  | completed undisturbed reached =>
    rw [runSteps_completed limit way] at run
    cases run
    rw [states] at undisturbed reached
    exact .completed undisturbed reached rfl rfl
  | vetoed before undisturbed stops reached active found pass event =>
    rw [runSteps_vetoed limit way event] at run
    cases run
    rw [states] at undisturbed stops reached
    exact .vetoed before undisturbed stops reached rfl active found rfl
  | @requested count store before undisturbed free hits reached event =>
    rw [runSteps_requested limit way event] at run
    cases run
    -- The event was made of what the step stored; what it stored is still there at the stop.
    have stored : i.machine.memory.byteAt store.address = store.value := by
      obtain ⟨m, n, stores, here, moved, hit⟩ := hits
      have same := reached.symm.trans (Machine.after_succ_of_reached here moved)
      rw [← Memory.byteAt_bare, ← Machine.memory_bare, Except.ok.inj same]
      exact Machine.byteAt_advance_of_stored moved hit.member
    rw [states] at undisturbed free hits reached
    exact .requested before undisturbed free hits reached rfl stored rfl
  | @failed count fault m before undisturbed reached failed unchecked =>
    rw [runSteps_failed limit way] at run
    cases run
    have next := Machine.after_of_failed reached failed (Nat.lt_succ_self count)
    rw [states] at undisturbed reached unchecked next
    exact .failed before undisturbed reached next unchecked

/-! ### Where a run ends -/

/-- A run of at most `limit` steps may end after `k` of them. -/
inductive EndsAfter (e : Emulator) (limit : Nat) : (k : Nat) → Prop where
  | breakpoint {k : Nat} : k < limit → e.debugger.StopsBefore e.unbroken k → EndsAfter e limit k
  | write {k : Nat} : k < limit → e.debugger.WritesWatched e.unbroken k →
      EndsAfter e limit (k + 1)
  | limit : EndsAfter e limit limit

/-- What a run tells that ended after `k` steps and left an emulator. A watched write of its last
step comes before all else. -/
inductive Tells (e left : Emulator) (limit k : Nat) : StopReason → Prop where
  | write {j : Nat} {store : Store} : k = j + 1 → e.debugger.HitsAt e.unbroken j store →
      Tells e left limit k
        (.write store.address (left.machine.memory.byteAt store.address).toNat)
  | breakpoint : (∀ j, k = j + 1 → ¬ e.debugger.WritesWatched e.unbroken j) → k < limit →
      e.debugger.StopsBefore e.unbroken k → Tells e left limit k (.breakpoint left.processor.pc)
  | limit : (∀ j, k = j + 1 → ¬ e.debugger.WritesWatched e.unbroken j) → k = limit →
      Tells e left limit k (.stepLimit left.processor.pc)

/-- A run of at most `limit` steps gets to a step that fails. A breakpoint there stops the run only
if there is an instruction to check. -/
def FailsWithin (e : Emulator) (limit : Nat) (fault : Fault) : Prop :=
  ∃ k < limit, ∃ m, e.unbroken k = .ok m ∧ e.unbroken (k + 1) = .error fault ∧
    e.debugger.Undisturbed e.unbroken k ∧
    (e.debugger.StopsBefore e.unbroken k → ∃ cause, m.decoded m.processor.pc = .error cause)

theorem EndsAfter.count_le (ends : e.EndsAfter limit k) {count : Nat} (within : count ≤ limit)
    (undisturbed : e.debugger.Undisturbed e.unbroken count) : count ≤ k := by
  refine Nat.le_of_not_lt fun earlier => ?_
  cases ends with
  | breakpoint before stops => exact (undisturbed k earlier).1 stops
  | @write j before writes => exact (undisturbed j (Nat.lt_of_succ_lt earlier)).2 writes
  | limit => omega

theorem EndsAfter.count_lt (ends : e.EndsAfter limit k) {count : Nat} (within : count < limit)
    (undisturbed : e.debugger.Undisturbed e.unbroken count)
    (free : ¬ e.debugger.StopsBefore e.unbroken count) : count < k := by
  have reached := ends.count_le (Nat.le_of_lt within) undisturbed
  cases ends with
  | breakpoint before stops =>
    refine Nat.lt_of_le_of_ne reached fun same => free ?_
    rw [same]
    exact stops
  | @write j before writes =>
    refine Nat.lt_of_not_le fun earlier => ?_
    exact (undisturbed j (Nat.lt_of_succ_le earlier)).2 writes
  | limit => exact within

theorem Ready.ends_least (ready : e.Ready) {event : StopEvent}
    (run : e.runSteps limit = (.ok event, left)) :
    ∃ k, IsLeast {k | e.EndsAfter limit k} k ∧ left.totalSteps = e.totalSteps + k ∧
      e.unbroken k = .ok left.machine.bare ∧ e.Tells left limit k event.reason := by
  have ended : e.Ended left limit (.ok event) := ready.ended run
  cases ended with
  | completed undisturbed reached total reason =>
    refine ⟨limit, ⟨.limit, fun k ends => ?_⟩, total, reached, ?_⟩
    · exact ends.count_le (Nat.le_refl _) undisturbed
    · rw [reason]
      exact .limit (fun j last => (undisturbed j (by omega)).2) rfl
  | @vetoed _ count decoded before undisturbed stops reached total active found reason =>
    refine ⟨count, ⟨.breakpoint before stops, fun k ends => ?_⟩, total, reached, ?_⟩
    · exact ends.count_le (Nat.le_of_lt before) undisturbed
    · rw [reason]
      exact .breakpoint (fun j last => (undisturbed j (by omega)).2) before stops
  | @requested _ count store before undisturbed free hits reached total stored reason =>
    refine ⟨count + 1, ⟨.write before hits.writesWatched, fun k ends => ?_⟩, total, reached, ?_⟩
    · exact ends.count_lt before undisturbed free
    · rw [reason, ← stored]
      exact .write rfl hits

theorem Ready.failsWithin (ready : e.Ready) {fault : Fault}
    (run : e.runSteps limit = (.error fault, left)) : e.FailsWithin limit fault := by
  have ended : e.Ended left limit (.error fault) := ready.ended run
  cases ended with
  | @failed _ count m before undisturbed reached failed unchecked =>
    exact ⟨count, before, m, reached, failed, undisturbed, unchecked⟩

theorem Ready.lt_of_failed (ready : e.Ready) {fault : Fault} {m : Machine memorySize} {count : Nat}
    (reached : e.unbroken count = .ok m) (failed : e.unbroken k = .error fault) : count < k := by
  refine Nat.lt_of_not_le fun within => ?_
  rw [ready.unbroken_eq] at reached failed
  obtain ⟨n, earlier⟩ := Machine.exists_after_of_le reached within
  rw [earlier] at failed
  cases failed

theorem Ready.runSteps_fails (ready : e.Ready) {fault : Fault}
    (fails : e.FailsWithin limit fault) : (e.runSteps limit).1 = .error fault := by
  obtain ⟨k, within, m, here, next, calm, uncheckable⟩ := fails
  match run : e.runSteps limit with
  | (result, left) =>
    have ended : e.Ended left limit result := ready.ended run
    -- Whatever ended the run before the failing step would have disturbed it.
    cases ended with
    | completed undisturbed reached =>
      have beyond := ready.lt_of_failed reached next
      omega
    | @vetoed event count decoded before undisturbed stops reached total active found reason =>
      have least : ¬ count < k := fun earlier => (calm count earlier).1 stops
      have beyond := ready.lt_of_failed reached next
      obtain rfl : count = k := by omega
      obtain ⟨cause, undecoded⟩ := uncheckable stops
      rw [here] at reached
      cases reached
      have clash := found.symm.trans undecoded
      cases clash
    | requested before undisturbed free hits reached =>
      have beyond := ready.lt_of_failed reached next
      exact absurd hits.writesWatched (calm _ (by omega)).2
    | @failed fault' count m' before undisturbed reached failed unchecked =>
      have beyond := ready.lt_of_failed reached next
      have beyond' := ready.lt_of_failed here failed
      obtain rfl : count = k := by omega
      exact congrArg Except.error (Except.error.inj (failed.symm.trans next))

/-- A run of at most so many steps ends as early as it may, in the state of the run that nothing
stops, and tells why; it fails exactly where that run does. -/
theorem runSteps_ends (reachable : e.Reachable) (limit : Nat) :
    (∀ event left, e.runSteps limit = (.ok event, left) →
      ∃ k, IsLeast {k | e.EndsAfter limit k} k ∧ left.totalSteps = e.totalSteps + k ∧
        e.unbroken k = .ok left.machine.bare ∧ e.Tells left limit k event.reason) ∧
    ∀ fault, (e.runSteps limit).1 = .error fault ↔ e.FailsWithin limit fault := by
  have ready := reachable.ready
  refine ⟨fun event left run => ready.ends_least run, fun fault => ⟨fun failed => ?_, ?_⟩⟩
  · match run : e.runSteps limit with
    | (result, left) =>
      rw [run] at failed
      obtain rfl : result = .error fault := failed
      exact ready.failsWithin run
  · exact ready.runSteps_fails

/-- A run that resumes at a breakpoint passes it and ends after a watched store. -/
theorem runSteps_ends_session : session.1.Reachable ∧ IsLeast {k | session.1.EndsAfter 10 k} 2 ∧
    session.1.Tells (session.1.runSteps (10 : Nat)).2 10 2 (.write 0x300 5) := by
  have ends := (runSteps_ends session.2 10).1
  match run : session.1.runSteps (10 : Nat) with
  | (outcome, left) =>
    have event : (session.1.runSteps (10 : Nat)).1 = .ok { reason := .write 0x300 5 } :=
      eq_ok_of_toOption (by decide +kernel)
    have steps : session.1.totalSteps = 1 ∧ (session.1.runSteps (10 : Nat)).2.totalSteps = 3 := by
      decide +kernel
    rw [run] at event steps
    obtain rfl : outcome = _ := event
    dsimp only at steps
    obtain ⟨k, least, total, -, tells⟩ := ends _ _ run
    obtain rfl : k = 2 := by omega
    exact ⟨session.2, least, tells⟩

end Chip8.Emulator
