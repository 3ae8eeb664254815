import Chip8.Proofs.Request

/-! What an emulator was made with.

Whether instructions are cached and whether memory is watched is settled by the settings when an
emulator is created. No request changes that, and none changes the settings.
-/

set_option autoImplicit false

namespace Chip8

variable {σ : Type} {size : Nat}

/-! ### Watched memory -/

namespace Memory

variable {m n : Memory size}

theorem isSome_tally_read {address : Int} {b : UInt8} (read : m.read address = .ok (b, n)) :
    n.tally.isSome = m.tally.isSome := by
  unfold Memory.read at read
  split at read
  · cases read
  · cases read
    exact Option.isSome_map

theorem isSome_tally_readRange {start count : Int} {data : List UInt8}
    (read : m.readRange start count = .ok (data, n)) : n.tally.isSome = m.tally.isSome := by
  unfold readRange at read
  split at read
  · cases read
    rfl
  · split at read
    · cases read
    · cases read
      exact Option.isSome_map

end Memory

namespace Machine

variable {m n : Machine size}

theorem isSome_tally_readWord (m : Machine size) (address : Int) :
    (m.readWord address).2.memory.tally.isSome = m.memory.tally.isSome := by
  obtain ⟨p, memory, screen, keypad, random⟩ := m
  unfold readWord Memory.read
  cases outOfRange? size address 1 with
  | some access => rfl
  | none =>
    cases outOfRange? size (address + 1) 1 with
    | some access => exact Option.isSome_map
    | none => exact Option.isSome_map.trans Option.isSome_map

theorem isSome_tally_execute {i : Instruction} {stores : List Store}
    (done : m.execute i = .ok (n, stores)) : n.memory.tally.isSome = m.memory.tally.isSome := by
  rw [(execute_ok done).1]
  simp only [transferred, Memory.store, Memory.countRead, Option.isSome_map]

end Machine

/-! ### Steps and runs -/

namespace Interpreter

variable {i j : Interpreter σ size}

def fittings (i : Interpreter σ size) : Bool × Bool :=
  (i.cache.isSome, i.machine.memory.tally.isSome)

theorem fittings_fetch {pc : Int} {result : Except Cause Decoded}
    (fetch : i.fetch pc = (result, j)) : j.fittings = i.fittings := by
  cases look : i.cache.bind (·[pc]?) with
  | some decoded =>
    rw [fetch_of_hit look] at fetch
    cases fetch
    rfl
  | none =>
    rw [fetch_of_miss look] at fetch
    cases fetch
    have cached : (kept i.cache pc (i.machine.decoded pc)).isSome = i.cache.isSome := by
      cases i.machine.decoded pc with
      | error cause => rfl
      | ok decoded => exact Option.isSome_map
    exact Prod.ext cached (i.machine.isSome_tally_readWord pc)

theorem fittings_step {result : Except Fault Bool} (step : i.step = (result, j)) :
    j.fittings = i.fittings := by
  cases stepped step with
  | polled waiting =>
    simp only [fittings, Machine.memory_poll]
  | unfetched active fetch => exact fittings_fetch fetch
  | vetoed active fetch ask =>
    have kept := fittings_fetch fetch
    rw [ask_keeps ask]
    exact kept
  | failed active fetch ask failed =>
    have kept := fittings_fetch fetch
    rw [ask_keeps ask]
    exact kept
  | executed active fetch ask done =>
    rw [← fittings_fetch fetch]
    have tally := Machine.isSome_tally_execute done
    rw [ask_keeps ask] at tally ⊢
    simp only [fittings, machine_noteStores, cache_noteStores, Option.isSome_map, tally]
    rfl

theorem Ran.fittings {steps count : Nat} {halt : Halt} (way : Ran i steps halt count j) :
    j.fittings = i.fittings := by
  induction way with
  | completed => rfl
  | failed step => exact fittings_step step
  | vetoed step => exact fittings_step step
  | requested step requested =>
    have kept := fittings_step step
    exact kept
  | more step quiet rest ih => exact ih.trans (fittings_step step)

end Interpreter

/-! ### Requests -/

namespace Emulator

open Interpreter (Ran)

variable {e left : Emulator}

def fittings (e : Emulator) : Settings × Bool × Bool :=
  (e.settings, e.interpreter.fittings)

theorem fittings_runUpTo (e : Emulator) (count : Int) :
    (e.runUpTo count).2.fittings = e.fittings := by
  obtain ⟨halt, ran, i, way⟩ := e.interpreter.exists_ran count.toNat
  have kept : (e.afterSteps ran i).fittings = e.fittings := Prod.ext rfl way.fittings
  cases halt with
  | completed =>
    rw [runUpTo_completed way]
    exact kept
  | failed fault =>
    rw [runUpTo_failed way]
    exact kept
  | vetoed =>
    rw [runUpTo_vetoed way]
    exact kept
  | requested =>
    rw [runUpTo_requested way]
    exact kept

theorem fittings_applyTimerEvents (e : Emulator) (count : Nat) :
    (e.applyTimerEvents count).fittings = e.fittings := by
  have kept : (count.repeat Interpreter.countDown e.interpreter).fittings =
      e.interpreter.fittings := by
    induction count with
    | zero => rfl
    | succ count ih => exact ih
  exact Prod.ext rfl kept

theorem fittings_runAndFinish (e : Emulator) (count : Int)
    {finish : Emulator → StopEvent × Emulator}
    (finished : ∀ left : Emulator, (finish left).2.fittings = left.fittings) :
    (e.runAndFinish count finish).2.fittings = e.fittings := by
  have kept := e.fittings_runUpTo count
  unfold runAndFinish
  match run : e.runUpTo count with
  | (.error fault, left) | (.ok (some event), left) =>
    rw [run] at kept
    exact kept
  | (.ok none, left) =>
    rw [run] at kept
    exact (finished left).trans kept

theorem fittings_runSteps (e : Emulator) (limit : Int) :
    (e.runSteps limit).2.fittings = e.fittings := by
  rw [runSteps_eq]
  exact e.fittings_runAndFinish limit fun left => rfl

theorem fittings_runTicks (e : Emulator) (ticks : Ticks) :
    (e.runTicks ticks).2.fittings = e.fittings := by
  rw [runTicks_eq]
  exact e.fittings_runAndFinish ticks.steps fun left => left.fittings_applyTimerEvents _

theorem fittings_run (e : Emulator) (elapsed : Quantity) :
    (e.run elapsed).2.fittings = e.fittings := by
  unfold Emulator.run
  split
  · rfl
  · next ticks clock advanced =>
    have kept := fittings_runTicks { e with clock } ticks
    match run : { e with clock }.runTicks ticks with
    | (.error fault, left) | (.ok event, left) =>
      rw [run] at kept
      exact kept

theorem fittings_step (e : Emulator) : e.step.2.fittings = e.fittings := by
  match step : e.interpreter.unasked.step with
  | (.error fault, i) =>
    have kept := Interpreter.fittings_step step
    rw [step_failed step]
    exact Prod.ext rfl kept
  | (.ok go, i) =>
    obtain rfl := Interpreter.unasked_step step
    have kept := Interpreter.fittings_step step
    rw [step_ran step]
    exact Prod.ext rfl kept

theorem fittings_runUntil (e : Emulator) (address limit : Int) :
    (e.runUntil address limit).2.fittings = e.fittings := by
  unfold Emulator.runUntil
  split
  · rw [snd_reached]
    exact e.fittings_runSteps limit
  · have kept := (e.onDebugger (·.addBreakpoint address)).fittings_runSteps limit
    rw [← snd_reached address] at kept
    exact kept

theorem fittings_withMemory {memory : Memory memorySize}
    (watched : memory.tally.isSome = e.machine.memory.tally.isSome) :
    (e.withMemory memory).fittings = e.fittings :=
  Prod.ext rfl (Prod.ext rfl watched)

theorem fittings_writeBytes {address : Int} {data : List UInt8}
    (written : e.writeBytes address data = .ok left) : left.fittings = e.fittings := by
  obtain ⟨memory, put, rfl⟩ := exists_of_map_eq_ok written
  rw [Memory.writeRange_ok put]
  simp [fittings, Interpreter.fittings, onInterpreter, Interpreter.invalidate, withMemory, onMachine,
    Memory.store, machine]

theorem fittings_loadProgram {data : List UInt8} {name : String}
    (loaded : e.loadProgram data name = .ok left) : left.fittings = e.fittings := by
  obtain ⟨-, rfl⟩ := loadProgram_ok loaded
  simp [programmed, fittings, Interpreter.fittings, onInterpreter, Interpreter.invalidate, onMachine,
    Memory.store, log]

theorem fittings_loadRom {path : String} {status : PathStatus}
    (loaded : e.loadRom path status = .ok left) : left.fittings = e.fittings := by
  obtain ⟨data, program, given, rfl⟩ := loadRom_ok loaded
  have kept := fittings_loadProgram given
  exact kept

theorem fittings_reset (e : Emulator) : e.reset.fittings = e.fittings := by
  have cached : e.reset.interpreter.cache.isSome = e.interpreter.cache.isSome := Option.isSome_map
  have watched : (powerOnMemory e.machine.memory).tally.isSome = e.machine.memory.tally.isSome := by
    simp only [powerOnMemory, Memory.resetCounters, Memory.store, Memory.reset, Option.isSome_map]
  exact Prod.ext rfl (Prod.ext cached watched)

/-- No request changes what an emulator was made with. -/
theorem fittings_perform (e : Emulator) (request : Request) :
    (e.perform request).2.fittings = e.fittings := by
  cases request with
  | reset => exact e.fittings_reset
  | step =>
    rw [Emulator.perform, snd_conclude]
    exact e.fittings_step
  | tick =>
    rw [Emulator.perform, snd_conclude, tick_eq]
    exact e.fittings_runAndFinish _ fun left => left.fittings_applyTimerEvents 1
  | run elapsed =>
    rw [Emulator.perform, snd_conclude]
    exact e.fittings_run elapsed
  | runTicks ticks =>
    rw [Emulator.perform, snd_conclude]
    exact e.fittings_runTicks ticks
  | runSteps limit =>
    rw [Emulator.perform, snd_conclude]
    exact e.fittings_runSteps limit
  | runUntil address limit =>
    rw [Emulator.perform, snd_conclude]
    exact e.fittings_runUntil address limit
  | load data name => exact view_settle fittings _ fun left => fittings_loadProgram
  | loadRom path status => exact view_settle fittings _ fun left => fittings_loadRom
  | pressKey name =>
    refine view_settle fittings _ fun left pressed => ?_
    obtain ⟨k, -, rfl⟩ := exists_of_map_eq_ok pressed
    rfl
  | releaseKey name =>
    refine view_settle fittings _ fun left released => ?_
    obtain ⟨k, -, rfl⟩ := exists_of_map_eq_ok released
    rfl
  | readByte address =>
    refine view_settle fittings _ fun served looked => ?_
    obtain ⟨⟨b, memory⟩, read, rfl⟩ := exists_of_map_eq_ok looked
    exact fittings_withMemory (Memory.isSome_tally_read read)
  | readBytes address count =>
    refine view_settle fittings _ fun served looked => ?_
    obtain ⟨⟨data, memory⟩, read, rfl⟩ := exists_of_map_eq_ok looked
    exact fittings_withMemory (Memory.isSome_tally_readRange read)
  | writeByte address value =>
    refine view_settle fittings _ fun left changed => ?_
    rw [writeByte_eq_writeBytes] at changed
    exact fittings_writeBytes changed
  | writeBytes address data => exact view_settle fittings _ fun left => fittings_writeBytes
  | setFrequency frequency =>
    refine view_settle fittings _ fun left set => ?_
    obtain ⟨clock, -, rfl⟩ := exists_of_map_eq_ok set
    rfl
  | render scale => exact view_settle fittings _ fun picture rendered => rfl
  | disassemble address count => exact view_settle fittings _ fun lines listed => rfl
  | _ => rfl

end Emulator

end Chip8
