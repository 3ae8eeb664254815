import Chip8.Proofs.ControlFlow
import Chip8.Proofs.FaultAtomicity
import Chip8.Proofs.FaultConditions

/-! Everything that an instruction leaves as it was.

An instruction writes its target registers, moves the program counter and changes at most one other
part of the machine. Some also set the flag. Whatever else there is stays, whichever registers are
the operands.
-/

set_option autoImplicit false

namespace Chip8

variable {σ : Type} {size : Nat}

/-! ### What instructions name -/

inductive Part where
  | screen
  | index
  | delay
  | sound
  -- The wait for a key and the register that it goes to.
  | wait
  | random
  deriving DecidableEq, Repr

namespace Instruction

def part? : Instruction → Option Part
  | clear | draw _ _ _ => some .screen
  | setIndex _ | addIndex _ | indexGlyph _ => some .index
  | setDelay _ => some .delay
  | setSound _ => some .sound
  | awaitKey _ => some .wait
  | random _ _ => some .random
  | _ => none

def Targets (r : Register) : Instruction → Prop
  | setByte x _ | addByte x _ | copy x _ | or x _ | and x _ | xor x _ | add x _ | subtract x _
  | shiftRight x | shiftLeft x | random x _ | readDelay x => r = x
  | subtractFrom _ y => r = y
  | loadRegisters x => r ≤ x
  | _ => False

/-- Whether an instruction sets the flag besides what it is to write. -/
def setsFlag : Instruction → Bool
  | add _ _ | subtract _ _ | shiftRight _ | subtractFrom _ _ | shiftLeft _ | addIndex _
  | draw _ _ _ => true
  | _ => false

def storeCount : Instruction → Nat
  | storeDecimal _ => 3
  | storeRegisters x => x.val + 1
  | _ => 0

theorem length_stored (i : Instruction) (p : Processor) : (i.stored p).length = i.storeCount := by
  cases i with
  | storeRegisters x => exact p.length_firstRegisters x
  | _ => rfl

structure Keeps (i : Instruction) (p q : Processor) : Prop where
  index : i.part? ≠ some .index → q.index = p.index
  delay : i.part? ≠ some .delay → q.delay = p.delay
  sound : i.part? ≠ some .sound → q.sound = p.sound
  waiting : i.part? ≠ some .wait → q.waiting = p.waiting
  keyRegister : i.part? ≠ some .wait → q.keyRegister = p.keyRegister
  registers : ∀ r, ¬ i.Targets r → (r = .flag → i.setsFlag = false) → q.get r = p.get r

variable {i : Instruction} {p q r : Processor}

theorem Keeps.flow (pc : Int) (stack : List Int) : Keeps i p { p with pc, stack } where
  index _ := rfl
  delay _ := rfl
  sound _ := rfl
  waiting _ := rfl
  keyRegister _ := rfl
  registers _ _ _ := rfl

theorem Keeps.refl : Keeps i p p :=
  .flow p.pc p.stack

theorem Keeps.trans (first : Keeps i p q) (second : Keeps i q r) : Keeps i p r where
  index other := (second.index other).trans (first.index other)
  delay other := (second.delay other).trans (first.delay other)
  sound other := (second.sound other).trans (first.sound other)
  waiting other := (second.waiting other).trans (first.waiting other)
  keyRegister other := (second.keyRegister other).trans (first.keyRegister other)
  registers r other flag := (second.registers r other flag).trans (first.registers r other flag)

theorem Keeps.skipIf (test : Bool) : Keeps i p (p.skipIf test) := by
  cases test with
  | true => exact .flow (p.pc + 2) p.stack
  | false => exact .refl

theorem Keeps.write {x : Register} (named : i.Targets x ∨ x = .flag ∧ i.setsFlag = true)
    (value : UInt8) : Keeps i p (p.set x value) where
  index _ := rfl
  delay _ := rfl
  sound _ := rfl
  waiting _ := rfl
  keyRegister _ := rfl
  registers r other flag := by
    refine p.get_set_of_ne value fun same => ?_
    subst same
    rcases named with target | ⟨isFlag, sets⟩
    · exact other target
    · rw [flag isFlag] at sets
      cases sets

theorem Keeps.set {x : Register} (target : i.Targets x) (value : UInt8) : Keeps i p (p.set x value) :=
  .write (.inl target) value

theorem Keeps.setFlag (sets : i.setsFlag = true) (on : Bool) : Keeps i p (p.setFlag on) :=
  .write (.inr ⟨rfl, sets⟩) _

theorem Flow.pc (flow : Flow i p q) (call : i.isCall = false) (ret : i.isRet = false)
    (jump : i.isJump = false) : q.pc = p.pc ∨ i.isSkip = true ∧ q.pc = p.pc + 2 := by
  cases flow with
  | onward _ _ _ next => exact .inl next
  | skipped skip next => exact .inr ⟨skip, next⟩
  | jumped jumps => simp [jump] at jumps
  | called calls => simp [call] at calls
  | returned returns => simp [ret] at returns

theorem Flow.stack (flow : Flow i p q) (call : i.isCall = false) (ret : i.isRet = false) :
    q.stack = p.stack := by
  cases flow with
  | onward _ _ _ _ stack => exact stack
  | skipped _ _ stack => exact stack
  | jumped _ _ _ stack => exact stack
  | called calls => simp [call] at calls
  | returned returns => simp [ret] at returns

theorem Flow.pushed (flow : Flow i p q) (call : i.isCall = true) : q.stack = p.pc :: p.stack := by
  cases flow with
  | onward never => simp [call] at never
  | skipped skip => simp [(straight_of_isSkip skip).1] at call
  | jumped jump => simp [(straight_of_isJump jump).1] at call
  | called _ _ _ stack => exact stack
  | returned ret => simp [isRet_of_isCall call] at ret

theorem Flow.popped (flow : Flow i p q) (ret : i.isRet = true) : p.stack = q.pc :: q.stack := by
  cases flow with
  | onward _ never => simp [ret] at never
  | skipped skip => simp [(straight_of_isSkip skip).2.1] at ret
  | jumped jump => simp [(straight_of_isJump jump).2] at ret
  | called call => simp [isRet_of_isCall call] at ret
  | returned _ stack => exact stack

end Instruction

open Instruction (Keeps)

/-! ### Executing -/

namespace Processor

theorem getElem_foldl_setIfInBounds (values : List UInt8) (first : Nat) (v : Vector UInt8 16)
    {r : Nat} (inside : r < 16) (beyond : first + values.length ≤ r) :
    ((values.zipIdx first).foldl (fun v (value, i) => v.setIfInBounds i value) v)[r] = v[r] := by
  induction values generalizing first v with
  | nil => rfl
  | cons value values ih =>
    rw [List.length_cons] at beyond
    have other : first ≠ r := by omega
    rw [List.zipIdx_cons, List.foldl_cons, ih (first + 1) _ (by omega),
      Vector.getElem_setIfInBounds, if_neg other]

theorem get_setFirst_of_le (p : Processor) {values : List UInt8} {r : Register}
    (beyond : values.length ≤ r.val) : (p.setFirst values).get r = p.get r :=
  getElem_foldl_setIfInBounds values 0 p.v r.isLt (by omega)

end Processor

structure Instruction.Confined (i : Instruction) (m n : Machine size) : Prop where
  processor : Keeps i m.processor n.processor
  screen : i.part? ≠ some .screen → n.screen = m.screen
  random : i.part? ≠ some .random → n.random = m.random
  keypad : n.keypad = m.keypad

open Instruction (Confined)

theorem Instruction.Keeps.confined {i : Instruction} {m : Machine size} {p : Processor}
    (keeps : Keeps i m.processor p) : Confined i m { m with processor := p } where
  processor := keeps
  screen _ := rfl
  random _ := rfl
  keypad := rfl

namespace Machine

variable {m n : Machine size} {stores : List Store}

theorem confined_ret (done : m.ret = .ok (n, stores)) : Confined .ret m n := by
  unfold ret at done
  split at done
  · cases done
  · cases done
    exact Keeps.confined (.flow _ _)

theorem confined_draw {x y : Register} {rows : Fin 16} (done : m.draw x y rows = .ok (n, stores)) :
    Confined (.draw x y rows) m n := by
  obtain ⟨p, memory, screen, keypad, random⟩ := m
  simp only [draw] at done
  split at done
  · cases done
  · cases done
    exact ⟨.setFlag rfl _, fun other => absurd rfl other, fun _ => rfl, rfl⟩

theorem confined_storeAtIndex {i : Instruction} {data : List UInt8}
    (done : m.storeAtIndex data = .ok (n, stores)) : Confined i m n := by
  obtain ⟨p, memory, screen, keypad, random⟩ := m
  simp only [storeAtIndex] at done
  split at done
  · cases done
  · cases done
    exact ⟨.refl, fun _ => rfl, fun _ => rfl, rfl⟩

theorem confined_loadRegisters {x : Register} (done : m.loadRegisters x = .ok (n, stores)) :
    Confined (.loadRegisters x) m n := by
  obtain ⟨p, memory, screen, keypad, random⟩ := m
  simp only [loadRegisters] at done
  split at done
  · cases done
  · next data memory' read =>
    cases done
    have given : data = (List.range' p.index.toNat (x.val + 1)).map memory.byteAt :=
      Memory.readRange_data read
    have length : data.length = x.val + 1 := by rw [given, List.length_map, List.length_range']
    refine ⟨⟨fun _ => rfl, fun _ => rfl, fun _ => rfl, fun _ => rfl, fun _ => rfl, ?_⟩,
      fun _ => rfl, fun _ => rfl, rfl⟩
    intro r other _
    have beyond : ¬ r.val ≤ x.val := other
    exact p.get_setFirst_of_le (by omega)

theorem confined {i : Instruction} (done : m.execute i = .ok (n, stores)) : Confined i m n := by
  cases i with
  | ret => exact confined_ret done
  | draw x y rows => exact confined_draw done
  | storeDecimal x => exact confined_storeAtIndex done
  | storeRegisters x => exact confined_storeAtIndex done
  | loadRegisters x => exact confined_loadRegisters done
  | machineCall target =>
    cases done
    exact Keeps.confined .refl
  | clear =>
    cases done
    exact ⟨.refl, fun other => absurd rfl other, fun _ => rfl, rfl⟩
  | jump | call | jumpFrom =>
    cases done
    exact Keeps.confined (.flow _ _)
  | skipIfByte | skipUnlessByte | skipIfSame | skipUnlessSame | skipIfDown | skipIfUp =>
    cases done
    exact Keeps.confined (.skipIf _)
  | setByte | addByte | copy | or | and | xor | readDelay =>
    cases done
    exact Keeps.confined (.set (by exact rfl) _)
  | add | subtract | subtractFrom | shiftRight | shiftLeft =>
    cases done
    -- The flag comes first, so a result that goes to the flag register stays.
    exact Keeps.confined ((Keeps.setFlag rfl _).trans (.set (by exact rfl) _))
  | setIndex | indexGlyph =>
    cases done
    exact Keeps.confined { Keeps.refl with index := fun other => absurd rfl other }
  | addIndex x =>
    cases done
    exact Keeps.confined ((Keeps.setFlag rfl _).trans
      { Keeps.refl with index := fun other => absurd rfl other })
  | setDelay x =>
    cases done
    exact Keeps.confined { Keeps.refl with delay := fun other => absurd rfl other }
  | setSound x =>
    cases done
    exact Keeps.confined { Keeps.refl with sound := fun other => absurd rfl other }
  | awaitKey x =>
    cases done
    exact Keeps.confined { Keeps.refl with
      waiting := fun other => absurd rfl other
      keyRegister := fun other => absurd rfl other }
  | random x mask =>
    cases done
    exact ⟨.set (by exact rfl) _, fun _ => rfl, fun other => absurd rfl other, rfl⟩

/-- Bytes that an instruction does not store to stay. -/
theorem byteAt_execute {i : Instruction} (done : m.execute i = .ok (n, stores)) {a : Nat}
    (other : a < m.processor.index.toNat ∨ m.processor.index.toNat + i.storeCount ≤ a) :
    n.memory.byteAt a = m.memory.byteAt a := by
  rw [← i.length_stored m.processor] at other
  rw [(execute_ok done).1, byteAt_transferred, Memory.byteAt_store_of_ne _ _ _ other]

end Machine

/-! ### Steps -/

/-- What an instruction changes of a machine, from before it is fetched to after it is executed, and
what it leaves. -/
structure Instruction.Footprint (i : Instruction) (m n : Machine size) : Prop
    extends Confined i m n where
  memory : ∀ a, a < m.processor.index.toNat ∨ m.processor.index.toNat + i.storeCount ≤ a →
    n.memory.byteAt a = m.memory.byteAt a
  pc : i.isCall = false → i.isRet = false → i.isJump = false →
    n.processor.pc = m.processor.pc + 2 ∨
      i.isSkip = true ∧ n.processor.pc = m.processor.pc + 4
  stack : i.isCall = false → i.isRet = false → n.processor.stack = m.processor.stack
  pushed : i.isCall = true → n.processor.stack = (m.processor.pc + 2) :: m.processor.stack
  popped : i.isRet = true → m.processor.stack = n.processor.pc :: n.processor.stack

open Instruction (Footprint)

theorem Machine.footprint_past {i : Instruction} {m n : Machine size} {stores : List Store}
    (done : m.past.execute i = .ok (n, stores)) : Footprint i m n := by
  have confined := m.past.confined done
  have flow := m.past.flow done
  have kept : Keeps i m.processor m.past.processor := .flow (m.processor.pc + 2) m.processor.stack
  exact {
    processor := kept.trans confined.processor
    screen := confined.screen
    random := confined.random
    keypad := confined.keypad
    memory := fun a => byteAt_execute done
    pc := fun call ret jump => by
      rcases flow.pc call ret jump with next | ⟨skip, next⟩
      · exact .inl next
      · exact .inr ⟨skip, next.trans (Int.add_assoc m.processor.pc 2 2)⟩
    stack := flow.stack
    pushed := flow.pushed
    popped := flow.popped }

/-- Counts of reads and writes are no part of what an instruction changes. -/
theorem Instruction.Footprint.of_bare {i : Instruction} {m n : Machine size}
    (footprint : Footprint i m.bare n.bare) : Footprint i m n where
  processor := footprint.processor
  screen := footprint.screen
  random := footprint.random
  keypad := footprint.keypad
  memory := footprint.memory
  pc := footprint.pc
  stack := footprint.stack
  pushed := footprint.pushed
  popped := footprint.popped

namespace Interpreter

theorem passed_leaves {i fetched asked : Interpreter σ size} {word : Word}
    {result : Except Cause Decoded} {go : Bool}
    (fetch : i.fetch i.machine.processor.pc = (result, fetched))
    (ask : fetched.ask i.machine.processor.pc word = (go, asked)) :
    (asked.passed i.machine.processor.pc).machine.bare = i.machine.bare.past := by
  rw [Machine.past, ← (fetch_leaves fetch).1, ask_keeps ask, ← processor_fetch fetch]
  rfl

/-- A step that executes an instruction changes only what the instruction names. -/
theorem step_footprint {i j : Interpreter σ size} {decoded : Decoded}
    (active : i.machine.processor.waiting = false)
    (fetched : (i.fetch i.machine.processor.pc).1 = .ok decoded) (step : i.step = (.ok true, j)) :
    Footprint decoded.instruction i.machine j.machine := by
  cases stepped step with
  | polled waiting =>
    rw [active] at waiting
    cases waiting
  | executed _ fetch ask done =>
    rw [fetch] at fetched
    cases fetched
    rw [machine_noteStores]
    have bare := congrArg Machine.bareEffect done
    rw [← Machine.execute_bare, passed_leaves fetch ask] at bare
    exact .of_bare (Machine.footprint_past bare)

def flagTarget : Interpreter Unit 2 where
  machine := {
    processor := { pc := 0, v := (Vector.replicate 16 0).set 15 9 }
    memory := ⟨#v[0x81, 0xF7], none⟩
    screen := .blank
    keypad := .released
    random := ⟨.replicate 624 0, 0⟩ }
  cache := none
  hooks := {}
  observer := ()
  stopRequested := false

theorem step_footprint_flagTarget : ∃ j, flagTarget.step = (.ok true, j) ∧
    Footprint (.subtractFrom 1 15) flagTarget.machine j.machine := by
  have fetched : (flagTarget.fetch 0).1 = .ok ⟨0x81F7, .subtractFrom 1 15⟩ := rfl
  have step : flagTarget.step = (.ok true, flagTarget.step.2) := rfl
  exact ⟨_, step, step_footprint rfl fetched step⟩

end Interpreter

end Chip8
