import Chip8.Proofs.Step

/-! The ways in which a run of steps can go.

A run is its steps one after the other, up to the first that is vetoed, fails or is followed by a
request to stop. What holds of whole runs is proved by induction on `Ran`.
-/

set_option autoImplicit false

namespace Chip8.Interpreter

variable {σ : Type} {size : Nat}

/-- How a run of at most so many steps ends, how many of them ran, and what they leave. -/
inductive Ran : Interpreter σ size → Nat → Halt → Nat → Interpreter σ size → Prop where
  | completed {i : Interpreter σ size} : Ran i 0 .completed 0 i
  | failed {i j : Interpreter σ size} {steps : Nat} {fault : Fault} :
      i.step = (.error fault, j) → Ran i (steps + 1) (.failed fault) 0 j
  | vetoed {i j : Interpreter σ size} {steps : Nat} :
      i.step = (.ok false, j) → Ran i (steps + 1) .vetoed 0 j
  | requested {i j : Interpreter σ size} {steps : Nat} :
      i.step = (.ok true, j) → j.stopRequested = true →
      Ran i (steps + 1) .requested 1 { j with stopRequested := false }
  | more {i j k : Interpreter σ size} {steps count : Nat} {halt : Halt} :
      i.step = (.ok true, j) → j.stopRequested = false → Ran j steps halt count k →
      Ran i (steps + 1) halt (count + 1) k

theorem exists_ran (i : Interpreter σ size) (steps : Nat) :
    ∃ halt count j, Ran i steps halt count j := by
  induction steps generalizing i with
  | zero => exact ⟨_, _, _, .completed⟩
  | succ steps ih =>
    cases step : i.step with
    | mk result j =>
      match result with
      | .error fault => exact ⟨_, _, _, .failed step⟩
      | .ok false => exact ⟨_, _, _, .vetoed step⟩
      | .ok true =>
        cases requested : j.stopRequested with
        | true => exact ⟨_, _, _, .requested step requested⟩
        | false =>
          obtain ⟨halt, count, k, rest⟩ := ih j
          exact ⟨_, _, _, .more step requested rest⟩

theorem Ran.run_eq {i j : Interpreter σ size} {steps count : Nat} {halt : Halt}
    (way : Ran i steps halt count j) (ran : Nat) : i.run steps ran = (halt, ran + count, j) := by
  induction way generalizing ran with
  | completed => rfl
  | failed step => simp only [run, step, Nat.add_zero]
  | vetoed step => simp only [run, step, Nat.add_zero]
  | requested step requested => simp only [run, step, takeStopRequest, requested]
  | @more i j k steps count halt step quiet rest ih =>
    -- Taking a request that is not there changes nothing.
    have same : { j with stopRequested := false } = j := by rw [← quiet]
    simp only [run, step, takeStopRequest, quiet, same]
    rw [ih, Nat.add_assoc, Nat.add_comm 1 count]

theorem Ran.hooks_eq {i j : Interpreter σ size} {steps count : Nat} {halt : Halt}
    (way : Ran i steps halt count j) : j.hooks = i.hooks := by
  induction way with
  | completed => rfl
  | failed step => exact hooks_step step
  | vetoed step => exact hooks_step step
  | requested step requested =>
    have kept := hooks_step step
    exact kept
  | more step quiet rest ih => exact ih.trans (hooks_step step)

theorem Ran.quiet {i j : Interpreter σ size} {steps count : Nat} {halt : Halt}
    (way : Ran i steps halt count j) (quiet : i.stopRequested = false) :
    j.stopRequested = false := by
  induction way with
  | completed => exact quiet
  | failed step => rw [stopRequested_step_of_failed step, quiet]
  | vetoed step => rw [stopRequested_step_of_vetoed step, quiet]
  | requested step requested => rfl
  | more step still rest ih => exact ih still

end Chip8.Interpreter
