import Chip8.Emulator.Host
import Chip8.Proofs.Coherence
import Chip8.Proofs.EmulatorRun

/-! Requests of a host to an emulator, and the emulators that requests lead to.

Every emulator that was created and then served requests is ready: its hooks are those of the
debugger, its cache is sound, and no stop is pending.
-/

set_option autoImplicit false

namespace Chip8

inductive Request where
  | reset
  | load (data : List UInt8) (name : String)
  | loadRom (path : String) (status : PathStatus)
  | step
  | tick
  | run (elapsed : Quantity)
  -- Run what some elapsed time comes to.
  | runTicks (ticks : Ticks)
  | runSteps (limit : Int)
  | runUntil (address limit : Int)
  | addBreakpoint (address : Int)
  | removeBreakpoint (address : Int)
  | addWatchpoint (address : Int)
  | removeWatchpoint (address : Int)
  | clearBreakpoints
  | pressKey (name : KeyName)
  | releaseKey (name : KeyName)
  | releaseAllKeys
  | readByte (address : Int)
  | readBytes (address count : Int)
  | writeByte (address value : Int)
  | writeBytes (address : Int) (data : List UInt8)
  | setFrequency (frequency : Quantity)
  | displayText
  | takePixels
  | render (scale : Int)
  | disassemble (address count : Int)

inductive Answer where
  | done
  | stopped (event : StopEvent)
  | reached (arrived : Bool)
  | byte (value : UInt8)
  | bytes (data : List UInt8)
  | text (shown : String)
  | lines (listing : List String)
  | picture (image : Picture)

inductive Refusal where
  | load (error : LoadError)
  | fault (fault : Fault)
  | clock (error : ClockError Quantity)
  | key (error : KeyError)
  | access (access : OutOfRange)
  | render (error : RenderError)

def RunError.refusal : RunError → Refusal
  | .clock error => .clock error
  | .fault f => .fault f

namespace Emulator

def settle {ε : Type} (e : Emulator) (refuse : ε → Refusal) :
    Except ε (Answer × Emulator) → Except Refusal Answer × Emulator
  | .error error => (.error (refuse error), e)
  | .ok (answer, e) => (.ok answer, e)

/-- The outcome of a run, which leaves an emulator also when it fails. -/
def conclude {ε α : Type} (refuse : ε → Refusal) (answer : α → Answer) :
    Except ε α × Emulator → Except Refusal Answer × Emulator
  | (.error error, e) => (.error (refuse error), e)
  | (.ok result, e) => (.ok (answer result), e)

def perform (e : Emulator) : Request → Except Refusal Answer × Emulator
  | .reset => (.ok .done, e.reset)
  | .load data name => e.settle .load ((e.loadProgram data name).map (.done, ·))
  | .loadRom path status => e.settle .load ((e.loadRom path status).map (.done, ·))
  | .step => conclude .fault .stopped e.step
  | .tick => conclude .fault .stopped e.tick
  | .run elapsed => conclude RunError.refusal .stopped (e.run elapsed)
  | .runTicks ticks => conclude .fault .stopped (e.runTicks ticks)
  | .runSteps limit => conclude .fault .stopped (e.runSteps limit)
  | .runUntil address limit => conclude .fault .reached (e.runUntil address limit)
  | .addBreakpoint address => (.ok .done, e.addBreakpoint address)
  | .removeBreakpoint address => (.ok .done, e.removeBreakpoint address)
  | .addWatchpoint address => (.ok .done, e.addWatchpoint address)
  | .removeWatchpoint address => (.ok .done, e.removeWatchpoint address)
  | .clearBreakpoints => (.ok .done, e.clearBreakpoints)
  | .pressKey name => e.settle .key ((e.pressKey name).map (.done, ·))
  | .releaseKey name => e.settle .key ((e.releaseKey name).map (.done, ·))
  | .releaseAllKeys => (.ok .done, e.releaseAllKeys)
  | .readByte address => e.settle .access ((e.readByte address).map fun (b, e) => (.byte b, e))
  | .readBytes address count =>
    e.settle .access ((e.readBytes address count).map fun (data, e) => (.bytes data, e))
  | .writeByte address value => e.settle .access ((e.writeByte address value).map (.done, ·))
  | .writeBytes address data => e.settle .access ((e.writeBytes address data).map (.done, ·))
  | .setFrequency frequency => e.settle .clock ((e.setFrequency frequency).map (.done, ·))
  | .displayText => (.ok (.text e.displayText), e)
  | .takePixels => (.ok (.bytes e.takePixels.1), e.takePixels.2)
  | .render scale => e.settle .render ((e.render scale).map (.picture ·, e))
  | .disassemble address count =>
    e.settle .access ((e.disassemble address count).map (.lines ·, e))

/-- Serve requests in turn, also after one that was refused; the outcomes are in that order. -/
def performAll (e : Emulator) : List Request → List (Except Refusal Answer) × Emulator
  | [] => ([], e)
  | request :: requests =>
    let (outcome, e) := e.perform request
    let (outcomes, e) := e.performAll requests
    (outcome :: outcomes, e)

inductive Reachable : Emulator → Prop where
  | created {settings : Settings} {screen : Screen} {keypad : Keypad} {entropy : Int}
      {e : Emulator} : create settings screen keypad entropy = .ok e → Reachable e
  | performed {e : Emulator} (request : Request) :
      Reachable e → Reachable (e.perform request).2

end Emulator

theorem exists_of_map_eq_ok {ε α β : Type} {change : α → β} {result : Except ε α} {b : β}
    (mapped : result.map change = .ok b) : ∃ a, result = .ok a ∧ change a = b := by
  cases result with
  | error error => cases mapped
  | ok a => exact ⟨a, rfl, Except.ok.inj mapped⟩

theorem eq_ok_of_toOption {ε α : Type} {result : Except ε α} {a : α}
    (found : result.toOption = some a) : result = .ok a := by
  cases result with
  | error error => cases found
  | ok b => exact congrArg Except.ok (Option.some.inj found)

theorem exists_eq_error_of_toOption {ε α : Type} {result : Except ε α}
    (missing : result.toOption = none) : ∃ error, result = .error error := by
  cases result with
  | error error => exact ⟨error, rfl⟩
  | ok b => cases missing

/-! ### What holds between requests -/

namespace Interpreter

variable {size : Nat}

structure Ready (i : Interpreter Debugger size) : Prop where
  hooks : i.hooks = Debugger.hooks
  coherent : i.Coherent
  quiet : i.stopRequested = false

variable {i j : Interpreter Debugger size}

theorem Ready.of_bytes_eq (ready : i.Ready)
    (bytes : j.machine.memory.bytes = i.machine.memory.bytes) (cache : j.cache = i.cache)
    (hooks : j.hooks = i.hooks) (stops : j.stopRequested = i.stopRequested) : j.Ready where
  hooks := hooks.trans ready.hooks
  coherent := ready.coherent.of_bytes_eq bytes cache
  quiet := stops.trans ready.quiet

theorem Ready.ran (ready : i.Ready) {steps count : Nat} {halt : Halt}
    (way : Ran i steps halt count j) : j.Ready where
  hooks := way.hooks_eq.trans ready.hooks
  coherent := (ready.coherent.ran way).1
  quiet := way.quiet ready.quiet

theorem Ready.countDown (ready : i.Ready) : i.countDown.Ready :=
  ready.of_bytes_eq rfl rfl rfl rfl

theorem repeat_countDown_eq (i : Interpreter Debugger size) (n : Nat) :
    n.repeat countDown i = i.onProcessor (n.repeat Processor.countDown) := by
  induction n with
  | zero => rfl
  | succ n ih =>
    simp only [Nat.repeat, ih]
    rfl

theorem Ready.repeat_countDown (ready : i.Ready) (count : Nat) :
    (count.repeat Interpreter.countDown i).Ready := by
  rw [repeat_countDown_eq]
  exact ready.of_bytes_eq rfl rfl rfl rfl

theorem Ready.stored (ready : i.Ready) {start : Int} {data : List UInt8}
    (inside : 0 ≤ start ∨ data = []) :
    ({ i with machine := { i.machine with
        memory := i.machine.memory.store start.toNat data } }.invalidate start data.length).Ready where
  hooks := ready.hooks
  coherent := ready.coherent.stored inside rfl rfl
  quiet := ready.quiet

theorem Ready.written (ready : i.Ready) {memory : Memory size} {start : Int} {data : List UInt8}
    (written : i.machine.memory.writeRange start data = .ok memory) :
    ({ i with machine := { i.machine with memory } }.invalidate start data.length).Ready := by
  rw [Memory.writeRange_ok written]
  exact ready.stored ((Memory.writeRange_inside written).imp_left (·.1))

end Interpreter

namespace Emulator

abbrev Ready (e : Emulator) : Prop :=
  e.interpreter.Ready

variable {e : Emulator}

theorem Ready.runUpTo (ready : e.Ready) (count : Int) : (e.runUpTo count).2.Ready := by
  obtain ⟨halt, ran, way⟩ := e.interpreter_runUpTo count
  exact Interpreter.Ready.ran ready way

theorem Ready.applyTimerEvents (ready : e.Ready) (count : Nat) :
    (e.applyTimerEvents count).Ready :=
  Interpreter.Ready.repeat_countDown ready count

theorem Ready.runAndFinish (ready : e.Ready) (count : Int)
    {finish : Emulator → StopEvent × Emulator}
    (finished : ∀ left : Emulator, left.Ready → (finish left).2.Ready) :
    (e.runAndFinish count finish).2.Ready := by
  have left := ready.runUpTo count
  unfold Emulator.runAndFinish
  match run : e.runUpTo count with
  | (.error fault, _) | (.ok (some event), _) =>
    rw [run] at left
    exact left
  | (.ok none, _) =>
    rw [run] at left
    exact finished _ left

theorem Ready.runSteps (ready : e.Ready) (limit : Int) : (e.runSteps limit).2.Ready := by
  rw [runSteps_eq]
  exact ready.runAndFinish limit fun _ left => left

theorem Ready.tick (ready : e.Ready) : e.tick.2.Ready := by
  rw [tick_eq]
  exact ready.runAndFinish _ fun _ left => left.applyTimerEvents 1

theorem Ready.runTicks (ready : e.Ready) (ticks : Ticks) : (e.runTicks ticks).2.Ready := by
  rw [runTicks_eq]
  exact ready.runAndFinish _ fun _ left => left.applyTimerEvents ticks.timerEvents

theorem Ready.run (ready : e.Ready) (elapsed : Quantity) : (e.run elapsed).2.Ready := by
  unfold Emulator.run
  split
  · exact ready
  · next ticks clock advanced =>
    have left := Ready.runTicks (e := { e with clock }) ready ticks
    match run : { e with clock }.runTicks ticks with
    | (.error fault, _) | (.ok event, _) =>
      rw [run] at left
      exact left

theorem Ready.step (ready : e.Ready) : e.step.2.Ready := by
  have sound : e.interpreter.unasked.Coherent := ready.coherent.of_bytes_eq rfl rfl
  match step : e.interpreter.unasked.step with
  | (.error fault, i) =>
    have left : e.step.2.interpreter = { i with hooks := e.interpreter.hooks } := by
      rw [step_failed step]
      rfl
    rw [Ready, left]
    exact {
      hooks := ready.hooks
      coherent := (sound.step step).1.of_bytes_eq rfl rfl
      quiet := (Interpreter.stopRequested_step_of_failed step).trans ready.quiet }
  | (.ok go, i) =>
    obtain rfl := Interpreter.unasked_step step
    have left : e.step.2.interpreter = disarmed i e.interpreter.hooks := by
      rw [step_ran step]
      rfl
    rw [Ready, left]
    exact {
      hooks := ready.hooks
      coherent := (sound.step step).1.of_bytes_eq rfl rfl
      quiet := rfl }

theorem Ready.onDebugger (ready : e.Ready) (change : Debugger → Debugger) :
    (e.onDebugger change).Ready :=
  ready.of_bytes_eq rfl rfl rfl rfl

theorem snd_reached (address : Int) (result : Except Fault StopEvent × Emulator) :
    (runUntil.reached address result).2 = result.2 := by
  obtain ⟨result, e⟩ := result
  cases result <;> rfl

theorem Ready.runUntil (ready : e.Ready) (address limit : Int) :
    (e.runUntil address limit).2.Ready := by
  unfold Emulator.runUntil
  split
  · rw [snd_reached]
    exact ready.runSteps limit
  · have armed := ready.onDebugger (·.addBreakpoint address)
    refine Ready.onDebugger ?_ (·.removeBreakpoint address)
    rw [snd_reached]
    exact armed.runSteps limit

theorem Ready.reset (ready : e.Ready) : e.reset.Ready where
  hooks := ready.hooks
  coherent := by
    intro cache present
    obtain ⟨before, held, rfl⟩ := Option.map_eq_some_iff.1 present
    exact DecodeCache.sound_empty _
  quiet := rfl

/-- A byte is written as its low eight bits, like a range of one byte. -/
theorem writeByte_eq_writeBytes (e : Emulator) (address value : Int) :
    e.writeByte address value = e.writeBytes address [UInt8.ofInt value] := by
  simp only [writeByte, pokeByte, writeBytes, Memory.write_eq_writeRange]
  cases e.machine.memory.writeRange address [UInt8.ofInt value] <;> rfl

theorem view_settle {ε α β : Type} (view : Emulator → β) (refuse : ε → Refusal)
    {result : Except ε α} {serve : α → Answer × Emulator}
    (kept : ∀ served, result = .ok served → view (serve served).2 = view e) :
    view (e.settle refuse (result.map serve)).2 = view e := by
  cases result with
  | error error => rfl
  | ok served => exact kept served rfl

theorem snd_conclude {ε α : Type} (refuse : ε → Refusal) (answer : α → Answer)
    (result : Except ε α × Emulator) : (conclude refuse answer result).2 = result.2 := by
  obtain ⟨result, left⟩ := result
  cases result <;> rfl

theorem Ready.settle {ε α : Type} (ready : e.Ready) (refuse : ε → Refusal) {result : Except ε α}
    {serve : α → Answer × Emulator} (left : ∀ served, result = .ok served → (serve served).2.Ready) :
    (e.settle refuse (result.map serve)).2.Ready := by
  cases result with
  | error error => exact ready
  | ok served => exact left served rfl

theorem Ready.conclude {ε α : Type} (refuse : ε → Refusal) (answer : α → Answer)
    {result : Except ε α × Emulator} (left : result.2.Ready) :
    (conclude refuse answer result).2.Ready := by
  obtain ⟨result, e⟩ := result
  cases result with
  | error error => exact left
  | ok value => exact left

def programmed (e : Emulator) (data : List UInt8) (name : String) : Emulator :=
  let e := e.onMachine fun m => { m with memory := m.memory.store programStart data }
  let e := e.onInterpreter (·.invalidate programStart data.length)
  { e with programName := name }.log .debug
    s!"Loaded {data.length} bytes from {name} at ${Text.hex 3 programStart}"

theorem loadProgram_ok {data : List UInt8} {name : String} {left : Emulator}
    (loaded : e.loadProgram data name = .ok left) :
    data.length ≤ maxProgramSize ∧ left = e.programmed data name := by
  unfold Emulator.loadProgram at loaded
  split at loaded
  · cases loaded
  · split at loaded
    · cases loaded
    · next fits =>
      cases loaded
      exact ⟨Nat.le_of_not_lt fits, rfl⟩

theorem loadRom_ok {path : String} {status : PathStatus} {left : Emulator}
    (loaded : e.loadRom path status = .ok left) :
    ∃ data program, e.loadProgram data (PathText.name path) = .ok program ∧
      left = program.log .info s!"Loaded ROM {PathText.name path}" := by
  unfold Emulator.loadRom at loaded
  split at loaded
  · next data =>
    dsimp only at loaded
    split at loaded
    · cases loaded
    · next program given =>
      cases loaded
      exact ⟨data, program, given, rfl⟩
  · cases loaded
  · cases loaded

theorem Ready.loadProgram (ready : e.Ready) {data : List UInt8} {name : String} {left : Emulator}
    (loaded : e.loadProgram data name = .ok left) : left.Ready := by
  obtain ⟨-, rfl⟩ := loadProgram_ok loaded
  exact Interpreter.Ready.stored ready (.inl (Int.natCast_nonneg programStart))

theorem Ready.loadRom (ready : e.Ready) {path : String} {status : PathStatus} {left : Emulator}
    (loaded : e.loadRom path status = .ok left) : left.Ready := by
  obtain ⟨data, program, given, rfl⟩ := loadRom_ok loaded
  have served := ready.loadProgram given
  exact served

theorem Ready.perform (ready : e.Ready) (request : Request) : (e.perform request).2.Ready := by
  cases request with
  | reset => exact ready.reset
  | load data name => exact ready.settle _ fun left loaded => ready.loadProgram loaded
  | loadRom path status => exact ready.settle _ fun left loaded => ready.loadRom loaded
  | step => exact .conclude _ _ ready.step
  | tick => exact .conclude _ _ ready.tick
  | run elapsed => exact .conclude _ _ (ready.run elapsed)
  | runTicks ticks => exact .conclude _ _ (ready.runTicks ticks)
  | runSteps limit => exact .conclude _ _ (ready.runSteps limit)
  | runUntil address limit => exact .conclude _ _ (ready.runUntil address limit)
  | pressKey name =>
    refine ready.settle _ fun left pressed => ?_
    obtain ⟨k, -, rfl⟩ := exists_of_map_eq_ok pressed
    exact ready.of_bytes_eq rfl rfl rfl rfl
  | releaseKey name =>
    refine ready.settle _ fun left released => ?_
    obtain ⟨k, -, rfl⟩ := exists_of_map_eq_ok released
    exact ready.of_bytes_eq rfl rfl rfl rfl
  | readByte address =>
    refine ready.settle _ fun served looked => ?_
    obtain ⟨⟨b, memory⟩, read, rfl⟩ := exists_of_map_eq_ok looked
    exact ready.of_bytes_eq (Memory.bytes_of_read read) rfl rfl rfl
  | readBytes address count =>
    refine ready.settle _ fun served looked => ?_
    obtain ⟨⟨data, memory⟩, read, rfl⟩ := exists_of_map_eq_ok looked
    exact ready.of_bytes_eq (Memory.bytes_of_readRange read) rfl rfl rfl
  | writeByte address value =>
    refine ready.settle _ fun left changed => ?_
    obtain ⟨poked, put, rfl⟩ := exists_of_map_eq_ok changed
    obtain ⟨memory, written, rfl⟩ := exists_of_map_eq_ok put
    rw [Memory.write_eq_writeRange] at written
    exact Interpreter.Ready.written ready written
  | writeBytes address data =>
    refine ready.settle _ fun left changed => ?_
    obtain ⟨memory, written, rfl⟩ := exists_of_map_eq_ok changed
    exact Interpreter.Ready.written ready written
  | setFrequency frequency =>
    refine ready.settle _ fun left set => ?_
    obtain ⟨clock, -, rfl⟩ := exists_of_map_eq_ok set
    exact ready
  | render scale => exact ready.settle _ fun picture rendered => ready
  | disassemble address count => exact ready.settle _ fun lines listed => ready
  -- The other requests touch neither memory nor the cache.
  | _ => exact ready.of_bytes_eq rfl rfl rfl rfl

theorem ready_of_create {settings : Settings} {screen : Screen} {keypad : Keypad} {entropy : Int}
    (created : create settings screen keypad entropy = .ok e) : e.Ready := by
  unfold create at created
  split at created
  · cases created
  · cases created
    refine Ready.reset {
      hooks := rfl
      coherent := ?_
      quiet := rfl }
    -- A new cache is empty.
    intro cache present
    dsimp only at present
    split at present
    · cases present
      exact DecodeCache.sound_empty _
    · cases present

/-- Hosts meet ready emulators only. -/
theorem Reachable.ready (reachable : e.Reachable) : e.Ready := by
  induction reachable with
  | created created => exact ready_of_create created
  | performed request earlier ih => exact ih.perform request

theorem Reachable.performAll (reachable : e.Reachable) (requests : List Request) :
    (e.performAll requests).2.Reachable := by
  induction requests generalizing e with
  | nil => exact reachable
  | cons request requests ih => exact ih (reachable.performed request)

def usual : Emulator :=
  (create {}).toOption.get (by decide +kernel)

theorem reachable_usual : usual.Reachable := by
  have created : (create {}).toOption = some usual := by rw [usual, Option.some_get]
  exact .created (eq_ok_of_toOption created)

def storeOnce : List UInt8 :=
  [0x60, 0x05, 0xA3, 0x00, 0xF0, 0x55, 0x12, 0x06]

/-- The program stopped before its second instruction, with the byte that it stores watched. -/
def session : { e : Emulator // e.Reachable } :=
  ⟨_, reachable_usual.performAll
    [.load storeOnce "store", .addBreakpoint 0x202, .addWatchpoint 0x300, .runSteps 10]⟩

end Emulator

end Chip8
