import Std.Data.HashMap
import Chip8.Instruction.Decode
import Chip8.Machine

/-! The interpreter: a machine with a cache of decoded instructions and two hooks.

One hook is asked before each instruction and may keep it from running; the other is told of each
byte that a program stored and may ask for a stop. Both see and change only an observer, never the
machine. While the program waits for a key, a step looks at the keypad and does nothing else.
-/

set_option autoImplicit false

namespace Chip8

structure Decoded where
  word : Word
  instruction : Instruction
  deriving DecidableEq, Repr

abbrev DecodeCache := Std.HashMap Int Decoded

namespace DecodeCache

/-- Drop the instructions that overlap `count` bytes from `start` on. An instruction at an address
covers that address and the next. -/
def forget (cache : DecodeCache) (start count : Int) : DecodeCache :=
  if count ≤ 0 then cache
  else cache.filter fun address _ => address < start - 1 || start + count ≤ address

theorem getElem?_forget (cache : DecodeCache) (start count a : Int) :
    (cache.forget start count)[a]? =
      if 0 < count ∧ start - 1 ≤ a ∧ a < start + count then none else cache[a]? := by
  unfold forget
  split
  · next empty =>
    have kept : ¬ (0 < count ∧ start - 1 ≤ a ∧ a < start + count) := by omega
    rw [if_neg kept]
  · next positive =>
    rw [Std.HashMap.getElem?_filter']
    by_cases overlaps : start - 1 ≤ a ∧ a < start + count
    · have stale : (decide (a < start - 1) || decide (start + count ≤ a)) = false := by
        simp only [Bool.or_eq_false_iff, decide_eq_false_iff_not]
        omega
      have dropped : 0 < count ∧ start - 1 ≤ a ∧ a < start + count := by omega
      rw [if_pos dropped, stale]
      cases cache[a]? <;> rfl
    · have fresh : (decide (a < start - 1) || decide (start + count ≤ a)) = true := by
        simp only [Bool.or_eq_true, decide_eq_true_eq]
        omega
      have kept : ¬ (0 < count ∧ start - 1 ≤ a ∧ a < start + count) := by omega
      rw [if_neg kept, fresh]
      cases cache[a]? <;> rfl

end DecodeCache

/-- Hooks over an observer of type `σ`. An answer of `false` stops. -/
structure Hooks (σ : Type) where
  onInstruction : Option (σ → (pc : Int) → Word → Bool × σ) := none
  onStore : Option (σ → Store → Bool × σ) := none

structure Interpreter (σ : Type) (size : Nat) where
  machine : Machine size
  /-- Absent if instructions are not cached. -/
  cache : Option DecodeCache
  hooks : Hooks σ
  observer : σ
  /-- Whether a store hook has asked for a stop. -/
  stopRequested : Bool

inductive Halt where
  | completed
  /-- The hook kept an instruction from running. -/
  | vetoed
  | requested
  | failed (fault : Fault)
  deriving DecidableEq, Repr

namespace Interpreter

variable {σ : Type} {size : Nat}

/-- Back to the start of a program; memory, screen, keypad and random bytes are kept. -/
def reset (i : Interpreter σ size) : Interpreter σ size :=
  { i with
    machine := { i.machine with processor := .powerOn }
    cache := i.cache.map fun _ => ∅
    stopRequested := false }

def invalidate (i : Interpreter σ size) (start count : Int) : Interpreter σ size :=
  { i with cache := i.cache.map (·.forget start count) }

def cacheSize (i : Interpreter σ size) : Nat :=
  match i.cache with
  | some cache => cache.size
  | none => 0

/-- Whether a stop was requested since this was last asked. -/
def takeStopRequest (i : Interpreter σ size) : Bool × Interpreter σ size :=
  (i.stopRequested, { i with stopRequested := false })

def onProcessor (i : Interpreter σ size) (change : Processor → Processor) : Interpreter σ size :=
  { i with machine := { i.machine with processor := change i.machine.processor } }

/-- The instruction at an address, from the cache or from memory. -/
def fetch (pc : Int) : Interpreter σ size → Except Cause Decoded × Interpreter σ size
  -- Taking the interpreter apart lets a run update memory in place.
  | ⟨machine, cache, hooks, observer, stopRequested⟩ =>
    match cache.bind (·[pc]?) with
    | some decoded => (.ok decoded, ⟨machine, cache, hooks, observer, stopRequested⟩)
    | none =>
      let (word, machine) := machine.readWord pc
      match word with
      | .error access =>
        (.error (.addressOutOfRange access), ⟨machine, cache, hooks, observer, stopRequested⟩)
      | .ok word =>
        match Instruction.decode word with
        | none =>
          (.error (.unknownOpcode word.toNat), ⟨machine, cache, hooks, observer, stopRequested⟩)
        | some instruction =>
          let decoded := ⟨word, instruction⟩
          (.ok decoded,
            ⟨machine, cache.map (·.insert pc decoded), hooks, observer, stopRequested⟩)

def ask (i : Interpreter σ size) (pc : Int) (word : Word) : Bool × Interpreter σ size :=
  match i.hooks.onInstruction with
  | none => (true, i)
  | some hook =>
    let (go, observer) := hook i.observer pc word
    (go, { i with observer })

def tell (i : Interpreter σ size) (store : Store) : Interpreter σ size :=
  match i.hooks.onStore with
  | none => i
  | some hook =>
    let (go, observer) := hook i.observer store
    { i with observer, stopRequested := i.stopRequested || !go }

/-- Drop what stores make stale in the cache, then tell of each of them. -/
def noteStores (i : Interpreter σ size) (stores : List Store) : Interpreter σ size :=
  let cache := i.cache.map fun cache =>
    stores.foldl (fun cache store => cache.forget store.address 1) cache
  stores.foldl tell { i with cache }

/-- Execute an instruction. It fails before its first effect, or not at all. -/
def execute (instruction : Instruction) :
    Interpreter σ size → Except Cause Unit × Interpreter σ size
  | ⟨machine, cache, hooks, observer, stopRequested⟩ =>
    match machine.execute instruction with
    | .error cause => (.error cause, ⟨machine, cache, hooks, observer, stopRequested⟩)
    | .ok (machine, stores) =>
      (.ok (), noteStores ⟨machine, cache, hooks, observer, stopRequested⟩ stores)

/-- One step. The result tells whether the step ran; a fault carries its place. -/
def step (i : Interpreter σ size) : Except Fault Bool × Interpreter σ size :=
  if i.machine.processor.waiting then (.ok true, { i with machine := i.machine.poll })
  else
    let pc := i.machine.processor.pc
    match i.fetch pc with
    | (.error cause, i) => (.error ((Fault.ofCause cause).locate pc none), i)
    | (.ok decoded, i) =>
      match i.ask pc decoded.word with
      | (false, i) => (.ok false, i)
      | (true, i) =>
        -- The counter moves on before execution, so a call keeps the address behind it, and a failed
        -- instruction leaves the counter there.
        match (i.onProcessor ({ · with pc := pc + 2 })).execute decoded.instruction with
        | (.error cause, i) =>
          (.error ((Fault.ofCause cause).locate pc (some decoded.word.toNat)), i)
        | (.ok (), i) => (.ok true, i)

/-- Run steps until one is vetoed, fails or is followed by a request to stop. The count of the steps
that ran goes on from `ran`. -/
def run : (steps ran : Nat) → Interpreter σ size → Halt × Nat × Interpreter σ size
  | 0, ran, i => (.completed, ran, i)
  | steps + 1, ran, i =>
    match i.step with
    | (.error fault, i) => (.failed fault, ran, i)
    | (.ok false, i) => (.vetoed, ran, i)
    | (.ok true, i) =>
      -- A request is taken, so that it ends this run only.
      match i.takeStopRequest with
      | (true, i) => (.requested, ran + 1, i)
      | (false, i) => run steps (ran + 1) i

def countDown (i : Interpreter σ size) : Interpreter σ size :=
  i.onProcessor Processor.countDown

/-- Run the steps of a frame and then a timer event. The result is `false` if an instruction was
vetoed; then, as after a fault, the timers do not count. Requests to stop are left alone. -/
def frame : (steps : Nat) → Interpreter σ size → Except Fault Bool × Interpreter σ size
  | 0, i => (.ok true, i.countDown)
  | steps + 1, i =>
    match i.step with
    | (.error fault, i) => (.error fault, i)
    | (.ok false, i) => (.ok false, i)
    | (.ok true, i) => frame steps i

end Interpreter

def defaultFrameSteps : Int := 10

def Processor.summary (p : Processor) : String :=
  s!"Chip8CPU(pc=${Text.hex 4 p.pc}, i=${Text.hex 4 p.index.toNat}, sp={p.stack.length})"

end Chip8
