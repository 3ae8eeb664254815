import Chip8.Proofs.Footprint
import Chip8.Proofs.RequestRun

/-! Random bytes along runs.

A seed fixes an unending sequence of bytes. Each random instruction takes the next of them, also for a
mask that leaves nothing of it, and nothing else takes any: no step that is vetoed, fails or waits for
a key, no other instruction and no reset. How far an emulator is in the sequence of its seed is
therefore the number of random instructions that it has executed.
-/

set_option autoImplicit false

namespace Chip8

variable {σ : Type} {size : Nat}

namespace Instruction

def isRandom : Instruction → Bool
  | random _ _ => true
  | _ => false

variable {i : Instruction}

theorem exists_of_isRandom (draws : i.isRandom = true) : ∃ x mask, i = random x mask := by
  cases i with
  | random x mask => exact ⟨x, mask, rfl⟩
  | _ => cases draws

theorem part?_ne_random (other : i.isRandom = false) : i.part? ≠ some .random := by
  intro same
  cases i with
  | random x mask => cases other
  | _ => cases same

end Instruction

/-- A random instruction that was executed, and what was in its register then. -/
structure Draw where
  register : Register
  mask : UInt8
  value : UInt8
  deriving DecidableEq, Repr

def Draw.instruction (draw : Draw) : Instruction :=
  .random draw.register draw.mask

/-! ### The sequence of a generator -/

namespace Random

def after (r : Random) : Nat → Random
  | 0 => r
  | n + 1 => (r.after n).byte.2

/-- A byte of the sequence, counted from zero. -/
def nth (r : Random) (n : Nat) : UInt8 :=
  (r.after n).byte.1

theorem after_add (r : Random) (m n : Nat) : r.after (m + n) = (r.after m).after n := by
  induction n with
  | zero => rfl
  | succ n ih =>
    rw [← Nat.add_assoc, after, ih]
    rfl

theorem nth_add (r : Random) (m n : Nat) : r.nth (m + n) = (r.after m).nth n := by
  rw [nth, after_add, nth]

structure Dealt (r : Random) (log : List Instruction) (draws : List Draw) (s : Random) : Prop where
  instructions : draws.map Draw.instruction = log.filter (·.isRandom)
  values : ∀ n draw, draws[n]? = some draw → draw.value = r.nth n &&& draw.mask
  generator : s = r.after draws.length

variable {r s t : Random} {log rest : List Instruction} {draws more : List Draw}

theorem Dealt.nothing (others : log.filter (·.isRandom) = []) (kept : s = r) :
    r.Dealt log [] s where
  instructions := others.symm
  values n draw never := by cases never
  generator := kept

theorem Dealt.one (r : Random) (x : Register) (mask : UInt8) :
    r.Dealt [.random x mask] [⟨x, mask, r.nth 0 &&& mask⟩] (r.after 1) where
  instructions := rfl
  values n draw found := by
    cases n with
    | zero =>
      cases found
      rfl
    | succ n => cases found
  generator := rfl

theorem Dealt.trans (first : r.Dealt log draws s) (second : s.Dealt rest more t) :
    r.Dealt (log ++ rest) (draws ++ more) t where
  instructions := by
    rw [List.map_append, List.filter_append, first.instructions, second.instructions]
  values n draw found := by
    by_cases early : n < draws.length
    · rw [List.getElem?_append_left early] at found
      exact first.values n draw found
    · -- The later draws go on where the earlier ones left the generator.
      have late : draws.length ≤ n := Nat.le_of_not_lt early
      rw [List.getElem?_append_right late] at found
      rw [second.values _ draw found, first.generator, ← nth_add, Nat.add_sub_cancel' late]
  generator := by rw [second.generator, first.generator, ← after_add, List.length_append]

theorem Dealt.length_eq (dealt : r.Dealt log draws s) : draws.length = log.countP (·.isRandom) := by
  rw [List.countP_eq_length_filter, ← dealt.instructions, List.length_map]

end Random

open Chip8.Random (Dealt)

/-! ### Steps and runs -/

theorem Machine.execute_random {m n : Machine size} {x : Register} {mask : UInt8}
    {stores : List Store} (done : m.execute (.random x mask) = .ok (n, stores)) :
    n.processor.get x = m.random.nth 0 &&& mask ∧ n.random = m.random.after 1 := by
  cases done
  exact ⟨m.processor.get_set_self x _, rfl⟩

namespace Interpreter

variable {i j fetched asked : Interpreter σ size}

def draw? (i : Interpreter σ size) : Option Draw :=
  match i.executed? with
  | some (.random x mask) => some ⟨x, mask, i.step.2.machine.processor.get x⟩
  | _ => none

def draws : (steps : Nat) → Interpreter σ size → List Draw
  | 0, _ => []
  | steps + 1, i =>
    match i.step with
    | (.ok true, j) => i.draw?.toList ++ if j.stopRequested then [] else draws steps j
    | _ => []

theorem draw?_of_none (nothing : i.executed? = none) : i.draw? = none := by
  rw [draw?, nothing]

theorem draw?_of_other {instruction : Instruction} (ran : i.executed? = some instruction)
    (other : instruction.isRandom = false) : i.draw? = none := by
  simp only [draw?, ran]
  cases instruction with
  | random x mask => cases other
  | _ => rfl

theorem random_fetch {pc : Int} {result : Except Cause Decoded}
    (fetch : i.fetch pc = (result, fetched)) : fetched.machine.random = i.machine.random := by
  have kept := congrArg Machine.random (fetch_leaves fetch).1
  exact kept

theorem random_passed {result : Except Cause Decoded} {word : Word} {go : Bool}
    (fetch : i.fetch i.machine.processor.pc = (result, fetched))
    (ask : fetched.ask i.machine.processor.pc word = (go, asked)) :
    (asked.passed i.machine.processor.pc).machine.random = i.machine.random := by
  have kept := congrArg Machine.random (passed_leaves fetch ask)
  exact kept

/-- A step that executes no instruction leaves the generator alone. -/
theorem dealt_idle (nothing : i.executed? = none) (kept : j.machine.random = i.machine.random) :
    i.machine.random.Dealt i.executed?.toList i.draw?.toList j.machine.random := by
  rw [draw?_of_none nothing, nothing]
  exact .nothing rfl kept

/-- A step draws a byte if it executes a random instruction, and otherwise none. -/
theorem dealt_step {result : Except Fault Bool} (step : i.step = (result, j)) :
    i.machine.random.Dealt i.executed?.toList i.draw?.toList j.machine.random := by
  cases stepped step with
  | polled waiting =>
    apply dealt_idle (executed?_of_waiting waiting)
    unfold Machine.poll
    cases i.machine.keypad.first? with
    | none => rfl
    | some key => rfl
  | unfetched active fetch =>
    apply dealt_idle (executed?_of_failed step)
    exact random_fetch fetch
  | vetoed active fetch ask =>
    apply dealt_idle (executed?_of_vetoed step)
    have kept := random_fetch fetch
    rw [ask_keeps ask]
    exact kept
  | failed active fetch ask failed =>
    apply dealt_idle (executed?_of_failed step)
    exact random_passed fetch ask
  | @executed decoded fetched asked machine stores active fetch ask done =>
    have ran := executed?_of_executed active fetch step
    have before := random_passed fetch ask
    obtain ⟨word, instruction⟩ := decoded
    rw [ran, machine_noteStores]
    -- All but a random instruction leave the generator alone.
    cases draws : instruction.isRandom with
    | false =>
      rw [draw?_of_other ran draws]
      apply Dealt.nothing
      · simp [draws]
      · rw [← before]
        exact (Machine.confined done).random (Instruction.part?_ne_random draws)
    | true =>
      obtain ⟨x, mask, rfl⟩ := Instruction.exists_of_isRandom draws
      obtain ⟨value, left⟩ := Machine.execute_random done
      rw [before] at value left
      have drawn : i.draw? = some ⟨x, mask, i.machine.random.nth 0 &&& mask⟩ := by
        simp only [draw?, ran, step, machine_noteStores, value]
      rw [drawn, left]
      exact .one i.machine.random x mask

theorem draws_of_more {steps : Nat} (step : i.step = (.ok true, j))
    (quiet : j.stopRequested = false) :
    i.draws (steps + 1) = i.draw?.toList ++ j.draws steps := by
  rw [draws, step]
  simp [quiet]

/-- A run draws a byte for each random instruction that it executes. -/
theorem dealt_ran {steps count : Nat} {halt : Halt} (way : Ran i steps halt count j) :
    i.machine.random.Dealt (i.executed steps) (i.draws steps) j.machine.random := by
  induction way with
  | completed => exact .nothing rfl rfl
  | failed step =>
    have dealt := dealt_step step
    rw [draw?_of_none (executed?_of_failed step), executed?_of_failed step] at dealt
    rw [executed_of_failed step, draws, step]
    exact dealt
  | vetoed step =>
    have dealt := dealt_step step
    rw [draw?_of_none (executed?_of_vetoed step), executed?_of_vetoed step] at dealt
    rw [executed_of_vetoed step, draws, step]
    exact dealt
  | requested step requested =>
    have dealt := dealt_step step
    rw [executed_of_requested step requested, draws, step]
    simp only [requested, if_true, List.append_nil]
    exact dealt
  | more step quiet rest ih =>
    rw [executed_of_more step quiet, draws_of_more step quiet]
    exact (dealt_step step).trans ih

end Interpreter

/-! ### Requests -/

namespace Emulator

variable {e f : Emulator}

def random (e : Emulator) : Random :=
  e.interpreter.machine.random

def draws (e : Emulator) (request : Request) : List Draw :=
  match e.runOf? request with
  | some (i, steps) => i.draws steps
  | none => []

theorem LeadsTo.dealt {i : Interpreter Debugger memorySize} {steps : Nat} {m : Machine memorySize}
    (leads : LeadsTo i steps m) :
    i.machine.random.Dealt (i.executed steps) (i.draws steps) m.random := by
  obtain ⟨halt, count, timers, j, way, rfl⟩ := leads
  exact Interpreter.dealt_ran way

/-- A request draws a byte for each random instruction that it executes, and otherwise leaves the
generator alone. -/
theorem dealt_perform (e : Emulator) (request : Request) :
    e.random.Dealt (e.executed request) (e.draws request) (e.perform request).2.random := by
  have way := e.performed request
  generalize (e.perform request).2 = left at way ⊢
  rw [executed_eq, draws]
  cases way with
  | reset => exact .nothing rfl rfl
  | ran runs leads =>
    have dealt := leads.dealt
    rw [machine_of_runs runs] at dealt
    rw [runs]
    exact dealt
  | still runs kept =>
    rw [runs]
    exact .nothing rfl (congrArg Prod.snd kept)

/-! ### Sessions -/

def executedAll (e : Emulator) : List Request → List Instruction
  | [] => []
  | request :: requests => e.executed request ++ (e.perform request).2.executedAll requests

def drawsAll (e : Emulator) : List Request → List Draw
  | [] => []
  | request :: requests => e.draws request ++ (e.perform request).2.drawsAll requests

theorem dealt_performAll (e : Emulator) (requests : List Request) :
    e.random.Dealt (e.executedAll requests) (e.drawsAll requests) (e.performAll requests).2.random := by
  induction requests generalizing e with
  | nil => exact .nothing rfl rfl
  | cons request requests ih => exact (e.dealt_perform request).trans (ih (e.perform request).2)

/-- A new emulator with a seed, whatever else it was made with. -/
def Seeded (e : Emulator) (seed : Int) : Prop :=
  ∃ settings screen keypad entropy,
    settings.seed = some seed ∧ create settings screen keypad entropy = .ok e

theorem Seeded.random_eq {seed : Int} (new : e.Seeded seed) : e.random = .ofSeed seed := by
  obtain ⟨settings, screen, keypad, entropy, seeded, created⟩ := new
  unfold create at created
  split at created
  · cases created
  · cases created
    change Random.ofSeed (settings.seed.getD entropy) = .ofSeed seed
    rw [seeded, Option.getD_some]

/-- Whatever a host asks for, the random instructions draw the bytes of the seed in order, and nothing
else draws any. Hosts that got as many random instructions executed are equally far in the sequence,
however their runs went. -/
theorem seed_fixes_draws {seed : Int} (new : e.Seeded seed) (twin : f.Seeded seed)
    (requests others : List Request) :
    (Random.ofSeed seed).Dealt (e.executedAll requests) (e.drawsAll requests)
      (e.performAll requests).2.random ∧
    ((e.executedAll requests).countP (·.isRandom) = (f.executedAll others).countP (·.isRandom) →
      (e.performAll requests).2.random = (f.performAll others).2.random) := by
  have dealt := e.dealt_performAll requests
  have dealt' := f.dealt_performAll others
  rw [new.random_eq] at dealt
  rw [twin.random_eq] at dealt'
  apply And.intro dealt
  intro same
  rw [dealt.generator, dealt'.generator, dealt.length_eq, dealt'.length_eq, same]

/-- A program that draws three bytes, the second with an empty mask, and then jumps on the spot. -/
def drawThree : List UInt8 :=
  [0xC0, 0xFF, 0xC1, 0x00, 0xC2, 0x0F, 0x12, 0x06]

def seeded : Emulator :=
  (create { seed := some 7 }).toOption.get (by decide +kernel)

def straight : List Request :=
  [.load drawThree "draw", .runSteps 10]

def interrupted : List Request :=
  [.load drawThree "draw", .addBreakpoint 0x202, .runSteps 10, .reset, .load drawThree "draw", .step,
    .step]

theorem seed_fixes_draws_interrupted :
    seeded.Seeded 7 ∧
    (seeded.executedAll straight).countP (·.isRandom) = 3 ∧
    (seeded.executedAll interrupted).countP (·.isRandom) = 3 ∧
    (Random.ofSeed 7).Dealt (seeded.executedAll straight) (seeded.drawsAll straight)
      (seeded.performAll straight).2.random ∧
    (seeded.performAll straight).2.random = (seeded.performAll interrupted).2.random := by
  have created : (create { seed := some 7 }).toOption = some seeded := by
    rw [seeded, Option.some_get]
  have new : seeded.Seeded 7 := ⟨_, _, _, _, rfl, eq_ok_of_toOption created⟩
  have once : (seeded.executedAll straight).countP (·.isRandom) = 3 := by decide +kernel
  have again : (seeded.executedAll interrupted).countP (·.isRandom) = 3 := by decide +kernel
  obtain ⟨dealt, alike⟩ := seed_fixes_draws new new straight interrupted
  exact ⟨new, once, again, dealt, alike (once.trans again.symm)⟩

end Emulator

end Chip8
