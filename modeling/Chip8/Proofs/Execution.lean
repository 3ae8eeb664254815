import Chip8.Proofs.Footprint

/-! Steps that come to execute an instruction.

Such a step does to the machine what the instruction does once the program counter is past it: it
leaves the machine that the instruction leaves, or it fails as the instruction fails and names its
place and its word. Counts of reads and writes apart, nothing else has a part in it.
-/

set_option autoImplicit false

namespace Chip8.Interpreter

variable {σ : Type} {size : Nat} {i : Interpreter σ size} {decoded : Decoded}

structure Executes (i : Interpreter σ size) (decoded : Decoded) : Prop where
  active : i.machine.processor.waiting = false
  reached : ∃ fetched asked, i.fetch i.machine.processor.pc = (.ok decoded, fetched) ∧
    fetched.ask i.machine.processor.pc decoded.word = (true, asked)

def Performs (i : Interpreter σ size) (decoded : Decoded) : Prop :=
  match i.machine.past.execute decoded.instruction with
  | .error cause =>
    i.step.1 = .error
      ((Fault.ofCause cause).locate i.machine.processor.pc (some decoded.word.toNat))
  | .ok (m, _) => i.step.1 = .ok true ∧ i.step.2.machine.bare = m.bare

theorem Performs.failed (performs : i.Performs decoded) {cause : Cause}
    (failed : i.machine.past.execute decoded.instruction = .error cause) :
    i.step.1 = .error
      ((Fault.ofCause cause).locate i.machine.processor.pc (some decoded.word.toNat)) := by
  unfold Performs at performs
  rw [failed] at performs
  exact performs

theorem Performs.done (performs : i.Performs decoded) {m : Machine size} {stores : List Store}
    (done : i.machine.past.execute decoded.instruction = .ok (m, stores)) :
    i.step.1 = .ok true ∧ i.step.2.machine.bare = m.bare := by
  unfold Performs at performs
  rw [done] at performs
  exact performs

theorem Executes.performs (next : i.Executes decoded) : i.Performs decoded := by
  obtain ⟨active, fetched, asked, fetch, ask⟩ := next
  -- The instruction acts on a machine that differs from the given one in its counts alone.
  have acts : (asked.passed i.machine.processor.pc).machine.bare = i.machine.past.bare :=
    passed_leaves fetch ask
  have same := Machine.execute_bare decoded.instruction (asked.passed i.machine.processor.pc).machine
  rw [acts, Machine.execute_bare] at same
  unfold Performs
  cases done : (asked.passed i.machine.processor.pc).machine.execute decoded.instruction with
  | error cause =>
    rw [(Stepped.failed active fetch ask done).step_eq]
    rw [done] at same
    cases alone : i.machine.past.execute decoded.instruction with
    | error other =>
      rw [alone] at same
      cases same
      rfl
    | ok result =>
      rw [alone] at same
      cases same
  | ok result =>
    obtain ⟨m, stores⟩ := result
    rw [(Stepped.executed active fetch ask done).step_eq, machine_noteStores]
    rw [done] at same
    cases alone : i.machine.past.execute decoded.instruction with
    | error other =>
      rw [alone] at same
      cases same
    | ok result =>
      rw [alone] at same
      obtain ⟨left, -⟩ := Prod.mk.inj (Except.ok.inj same)
      exact ⟨rfl, left.symm⟩

/-- With a sound cache a step comes to execute the instruction that memory holds, unless it is kept
from it. -/
theorem Coherent.executes (coherent : i.Coherent) (active : i.machine.processor.waiting = false)
    (found : i.machine.decoded i.machine.processor.pc = .ok decoded)
    (free : (i.ask i.machine.processor.pc decoded.word).1 = true) : i.Executes decoded := by
  match fetch : i.fetch i.machine.processor.pc with
  | (result, fetched) =>
    obtain ⟨rfl, -, -⟩ := coherent.fetch fetch
    rw [found] at fetch
    refine ⟨active, fetched, _, fetch, Prod.ext ?_ rfl⟩
    have kept := fetch_keeps fetch
    rw [← free]
    exact ask_fst_congr (by rw [kept]) (by rw [kept]) _ _

end Chip8.Interpreter
