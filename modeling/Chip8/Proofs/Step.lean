import Chip8.Interpreter

/-! The ways in which one step of the interpreter can go.

A step looks at the keypad, or its instruction cannot be fetched, is kept from running, fails, or
runs. Everything about steps is proved by going through these five cases.
-/

set_option autoImplicit false

namespace Chip8

variable {σ : Type} {size : Nat}

/-- The instruction that memory holds at an address. -/
def Machine.decoded (m : Machine size) (address : Int) : Except Cause Decoded :=
  match (m.readWord address).1 with
  | .error access => .error (.addressOutOfRange access)
  | .ok word =>
    match Instruction.decode word with
    | none => .error (.unknownOpcode word.toNat)
    | some instruction => .ok ⟨word, instruction⟩

namespace Interpreter

/-! ### The parts of a step -/

theorem fetch_of_hit {i : Interpreter σ size} {pc : Int} {decoded : Decoded}
    (hit : i.cache.bind (·[pc]?) = some decoded) : i.fetch pc = (.ok decoded, i) := by
  obtain ⟨machine, cache, hooks, observer, stopRequested⟩ := i
  simp only [fetch]
  rw [hit]

def kept (cache : Option DecodeCache) (pc : Int) : Except Cause Decoded → Option DecodeCache
  | .error _ => cache
  | .ok decoded => cache.map (·.insert pc decoded)

theorem fetch_of_miss {i : Interpreter σ size} {pc : Int} (miss : i.cache.bind (·[pc]?) = none) :
    i.fetch pc = (i.machine.decoded pc,
      { i with
        machine := (i.machine.readWord pc).2
        cache := kept i.cache pc (i.machine.decoded pc) }) := by
  obtain ⟨machine, cache, hooks, observer, stopRequested⟩ := i
  simp only [fetch, Machine.decoded]
  rw [miss]
  cases read : machine.readWord pc with
  | mk word machine =>
    cases word with
    | error access => rfl
    | ok word =>
      dsimp only
      cases Instruction.decode word with
      | none => rfl
      | some instruction => rfl

theorem fetch_keeps {i j : Interpreter σ size} {pc : Int} {result : Except Cause Decoded}
    (fetch : i.fetch pc = (result, j)) : j = { i with machine := j.machine, cache := j.cache } := by
  cases look : i.cache.bind (·[pc]?) with
  | some decoded =>
    rw [fetch_of_hit look] at fetch
    cases fetch
    rfl
  | none =>
    rw [fetch_of_miss look] at fetch
    cases fetch
    rfl

theorem ask_keeps {i j : Interpreter σ size} {pc : Int} {word : Word} {go : Bool}
    (ask : i.ask pc word = (go, j)) : j = { i with observer := j.observer } := by
  unfold Interpreter.ask at ask
  split at ask
  · cases ask
    rfl
  · cases ask
    rfl

theorem tell_eq (i : Interpreter σ size) (store : Store) :
    i.tell store = { i with
      observer := (i.tell store).observer, stopRequested := (i.tell store).stopRequested } := by
  unfold tell
  split <;> rfl

-- The fold rewrites the interpreter store by store, so the hooks that each store is told to are
-- those that were there before the first.
theorem foldl_tell_eq (stores : List Store) (i : Interpreter σ size) :
    stores.foldl tell i = { i with
      observer := (stores.foldl tell i).observer
      stopRequested := (stores.foldl tell i).stopRequested } := by
  induction stores generalizing i with
  | nil => rfl
  | cons store stores ih =>
    rw [List.foldl_cons, ih, tell_eq i store]

@[simp] theorem machine_noteStores (i : Interpreter σ size) (stores : List Store) :
    (i.noteStores stores).machine = i.machine := by
  simp only [noteStores]
  rw [foldl_tell_eq]

@[simp] theorem hooks_noteStores (i : Interpreter σ size) (stores : List Store) :
    (i.noteStores stores).hooks = i.hooks := by
  simp only [noteStores]
  rw [foldl_tell_eq]

@[simp] theorem cache_noteStores (i : Interpreter σ size) (stores : List Store) :
    (i.noteStores stores).cache =
      i.cache.map fun cache => stores.foldl (fun cache store => cache.forget store.address 1) cache := by
  simp only [noteStores]
  rw [foldl_tell_eq]

def passed (i : Interpreter σ size) (pc : Int) : Interpreter σ size :=
  i.onProcessor ({ · with pc := pc + 2 })

theorem onProcessor_eq_passed (i : Interpreter σ size) (pc : Int) :
    i.onProcessor ({ · with pc := pc + 2 }) = i.passed pc := rfl

/-! ### Steps -/

inductive Stepped (i : Interpreter σ size) : Except Fault Bool → Interpreter σ size → Prop where
  | polled : i.machine.processor.waiting = true →
      Stepped i (.ok true) { i with machine := i.machine.poll }
  | unfetched {cause : Cause} {fetched : Interpreter σ size} :
      i.machine.processor.waiting = false →
      i.fetch i.machine.processor.pc = (.error cause, fetched) →
      Stepped i (.error ((Fault.ofCause cause).locate i.machine.processor.pc none)) fetched
  | vetoed {decoded : Decoded} {fetched asked : Interpreter σ size} :
      i.machine.processor.waiting = false →
      i.fetch i.machine.processor.pc = (.ok decoded, fetched) →
      fetched.ask i.machine.processor.pc decoded.word = (false, asked) →
      Stepped i (.ok false) asked
  | failed {decoded : Decoded} {fetched asked : Interpreter σ size} {cause : Cause} :
      i.machine.processor.waiting = false →
      i.fetch i.machine.processor.pc = (.ok decoded, fetched) →
      fetched.ask i.machine.processor.pc decoded.word = (true, asked) →
      (asked.passed i.machine.processor.pc).machine.execute decoded.instruction = .error cause →
      Stepped i
        (.error ((Fault.ofCause cause).locate i.machine.processor.pc (some decoded.word.toNat)))
        (asked.passed i.machine.processor.pc)
  | executed {decoded : Decoded} {fetched asked : Interpreter σ size} {machine : Machine size}
      {stores : List Store} :
      i.machine.processor.waiting = false →
      i.fetch i.machine.processor.pc = (.ok decoded, fetched) →
      fetched.ask i.machine.processor.pc decoded.word = (true, asked) →
      (asked.passed i.machine.processor.pc).machine.execute decoded.instruction =
        .ok (machine, stores) →
      Stepped i (.ok true) ({ asked with machine }.noteStores stores)

theorem execute_eq_error {instruction : Instruction} {i : Interpreter σ size} {cause : Cause}
    (failed : i.machine.execute instruction = .error cause) :
    i.execute instruction = (.error cause, i) := by
  simp only [execute, failed]

theorem execute_eq_ok {instruction : Instruction} {i : Interpreter σ size} {machine : Machine size}
    {stores : List Store} (done : i.machine.execute instruction = .ok (machine, stores)) :
    i.execute instruction = (.ok (), { i with machine }.noteStores stores) := by
  simp only [execute, done]

/-- Every step goes in one of these ways. -/
theorem stepped {i j : Interpreter σ size} {result : Except Fault Bool}
    (step : i.step = (result, j)) : Stepped i result j := by
  unfold Interpreter.step at step
  split at step
  · next waiting =>
    cases step
    exact .polled waiting
  · next active =>
    have active := Bool.eq_false_iff.2 active
    cases fetch : i.fetch i.machine.processor.pc with
    | mk word fetched =>
      cases word with
      | error cause =>
        simp only [fetch] at step
        cases step
        exact .unfetched active fetch
      | ok decoded =>
        cases ask : fetched.ask i.machine.processor.pc decoded.word with
        | mk go asked =>
          cases go with
          | false =>
            simp only [fetch, ask] at step
            cases step
            exact .vetoed active fetch ask
          | true =>
            simp only [fetch, ask, onProcessor_eq_passed] at step
            cases done :
                (asked.passed i.machine.processor.pc).machine.execute decoded.instruction with
            | error cause =>
              rw [execute_eq_error done] at step
              cases step
              exact .failed active fetch ask done
            | ok result =>
              rw [execute_eq_ok done] at step
              cases step
              -- Moving the program counter is part of what `machine` was made of.
              have ran := Stepped.executed active fetch ask done
              exact ran

theorem Stepped.step_eq {i j : Interpreter σ size} {result : Except Fault Bool}
    (way : Stepped i result j) : i.step = (result, j) := by
  unfold step
  cases way with
  | polled waiting => rw [if_pos waiting]
  | unfetched active fetch =>
    rw [if_neg (by simp [active])]
    simp only [fetch]
  | vetoed active fetch ask =>
    rw [if_neg (by simp [active])]
    simp only [fetch, ask]
  | failed active fetch ask failed =>
    rw [if_neg (by simp [active])]
    simp only [fetch, ask, onProcessor_eq_passed, execute_eq_error failed]
  | executed active fetch ask done =>
    rw [if_neg (by simp [active])]
    simp only [fetch, ask, onProcessor_eq_passed, execute_eq_ok done]
    rfl

theorem hooks_step {i j : Interpreter σ size} {result : Except Fault Bool}
    (step : i.step = (result, j)) : j.hooks = i.hooks := by
  cases stepped step with
  | polled waiting => rfl
  | unfetched active fetch => rw [fetch_keeps fetch]
  | vetoed active fetch ask => rw [ask_keeps ask, fetch_keeps fetch]
  | failed active fetch ask failed =>
    rw [ask_keeps ask, fetch_keeps fetch]
    rfl
  | executed active fetch ask done =>
    rw [hooks_noteStores, ask_keeps ask, fetch_keeps fetch]

theorem stopRequested_step_of_failed {i j : Interpreter σ size} {fault : Fault}
    (step : i.step = (.error fault, j)) : j.stopRequested = i.stopRequested := by
  cases stepped step with
  | unfetched active fetch => rw [fetch_keeps fetch]
  | failed active fetch ask failed =>
    rw [ask_keeps ask, fetch_keeps fetch]
    rfl

theorem stopRequested_step_of_vetoed {i j : Interpreter σ size} (step : i.step = (.ok false, j)) :
    j.stopRequested = i.stopRequested := by
  cases stepped step with
  | vetoed active fetch ask => rw [ask_keeps ask, fetch_keeps fetch]

end Interpreter

end Chip8
