import Chip8.Proofs.EmulatorShadow
import Chip8.Proofs.Request

/-! The cache of decoded instructions is invisible to hosts.

Two emulators that differ in caching alone give the same answers to the same requests, refusals
among them, and are left in the same state. Only counters of reads differ: the cache saves reads.
-/

set_option autoImplicit false

namespace Chip8.Emulator

variable {cached plain : Emulator}

/-! ### Requests -/

theorem alike_conclude {ε α : Type} (refuse : ε → Refusal) (answer : α → Answer)
    {x y : Except ε α × Emulator} (alike : Alike x y) :
    Alike (conclude refuse answer x) (conclude refuse answer y) := by
  obtain ⟨result, left, right, rfl, rfl, follows⟩ := alike
  cases result with
  | error error => exact .of _ follows
  | ok result => exact .of _ follows

theorem Shadows.settle {ε : Type} (shadows : cached.Shadows plain) (refuse : ε → Refusal)
    {x y : Except ε (Answer × Emulator)}
    (agree : Agree (fun x y => x.1 = y.1 ∧ x.2.Shadows y.2) x y) :
    Alike (cached.settle refuse x) (plain.settle refuse y) := by
  cases agree with
  | error error => exact .of _ shadows
  | @ok x y held =>
    obtain ⟨answer, left⟩ := x
    obtain ⟨answer', right⟩ := y
    obtain ⟨rfl, follows⟩ := held
    exact .of _ follows

theorem Shadows.settle_done {ε : Type} (shadows : cached.Shadows plain) (refuse : ε → Refusal)
    {x y : Except ε Emulator} (agree : Agree Shadows x y) :
    Alike (cached.settle refuse (x.map (.done, ·))) (plain.settle refuse (y.map (.done, ·))) :=
  shadows.settle refuse (agree.map fun _ _ follows => ⟨rfl, follows⟩)

theorem Shadows.reset (shadows : cached.Shadows plain) : cached.reset.Shadows plain.reset := by
  have memories := shadows.interpreter.machine.memory.powerOn
  have machines := shadows.interpreter.machine.change memories
    (fun m => { m with processor := .powerOn, screen := m.screen.clear }) fun _ => rfl
  have interpreter : cached.reset.interpreter.Shadows plain.reset.interpreter := {
    machine := machines
    coherent := by
      intro cache present
      obtain ⟨before, held, rfl⟩ := Option.map_eq_some_iff.1 present
      exact DecodeCache.sound_empty _
    uncached := congrArg (Option.map fun _ => ∅) shadows.interpreter.uncached
    hooks := shadows.interpreter.hooks
    observer := congrArg Debugger.clearEvent shadows.interpreter.observer
    stopRequested := rfl }
  exact {
    interpreter
    frameSteps := shadows.frameSteps
    clock := congrArg Clock.reset shadows.clock
    lastFault := rfl
    programName := shadows.programName
    totalSteps := rfl
    totalTimerEvents := rfl
    journal := congrArg (·.push ⟨.debug, "Emulator reset"⟩) shadows.journal }

theorem Shadows.loadProgram (shadows : cached.Shadows plain) (data : List UInt8) (name : String) :
    Agree Shadows (cached.loadProgram data name) (plain.loadProgram data name) := by
  unfold Emulator.loadProgram
  split
  · exact .error _
  · split
    · exact .error _
    · have stored := shadows.interpreter.stored programStart data
        (.inl (Int.natCast_nonneg programStart))
      refine .ok (Shadows.log ?_ .debug rfl)
      exact { shadows with interpreter := stored, programName := rfl }

theorem Shadows.loadRom (shadows : cached.Shadows plain) (path : String) (status : PathStatus) :
    Agree Shadows (cached.loadRom path status) (plain.loadRom path status) := by
  unfold Emulator.loadRom
  split
  · next data =>
    have loaded := shadows.loadProgram data (PathText.name path)
    dsimp only
    generalize cached.loadProgram data (PathText.name path) = x at loaded ⊢
    generalize plain.loadProgram data (PathText.name path) = y at loaded ⊢
    cases loaded with
    | error error => exact .error _
    | ok follows => exact .ok (follows.log .info rfl)
  · exact .error _
  · exact .error _

theorem Shadows.onKeypad (shadows : cached.Shadows plain) (change : Keypad → Keypad) :
    (cached.onKeypad change).Shadows (plain.onKeypad change) :=
  let machine := shadows.interpreter.machine.change shadows.interpreter.machine.memory
    (fun m => { m with keypad := change m.keypad }) fun _ => rfl
  { shadows with interpreter := shadows.interpreter.onMachine machine rfl }

theorem Shadows.onScreen (shadows : cached.Shadows plain) (screen : Screen) :
    (cached.onMachine ({ · with screen })).Shadows (plain.onMachine ({ · with screen })) :=
  let machine := shadows.interpreter.machine.change shadows.interpreter.machine.memory
    ({ · with screen }) fun _ => rfl
  { shadows with interpreter := shadows.interpreter.onMachine machine rfl }

theorem Shadows.withMemory (shadows : cached.Shadows plain) {memory memory' : Memory memorySize}
    (memories : memory.Shadows memory') (bytes : memory.bytes = cached.machine.memory.bytes) :
    (cached.withMemory memory).Shadows (plain.withMemory memory') :=
  let machine := shadows.interpreter.machine.change memories id fun _ => rfl
  { shadows with interpreter := shadows.interpreter.onMachine machine bytes }

theorem Shadows.screen (shadows : cached.Shadows plain) :
    cached.machine.screen = plain.machine.screen := by
  have same := congrArg Machine.screen shadows.interpreter.machine.same
  exact same

theorem Shadows.readByte (shadows : cached.Shadows plain) (address : Int) :
    Agree (fun x y => x.1 = y.1 ∧ x.2.Shadows y.2) (cached.readByte address)
      (plain.readByte address) :=
  (shadows.interpreter.machine.memory.read address).map fun _ _ ⟨same, memories, bytes⟩ =>
    ⟨same, shadows.withMemory memories bytes⟩

theorem Shadows.readBytes (shadows : cached.Shadows plain) (address count : Int) :
    Agree (fun x y => x.1 = y.1 ∧ x.2.Shadows y.2) (cached.readBytes address count)
      (plain.readBytes address count) :=
  (shadows.interpreter.machine.memory.readRange address count).map fun _ _ ⟨same, memories, bytes⟩ =>
    ⟨same, shadows.withMemory memories bytes⟩

theorem Shadows.writeBytes (shadows : cached.Shadows plain) (address : Int) (data : List UInt8) :
    Agree Shadows (cached.writeBytes address data) (plain.writeBytes address data) := by
  unfold Emulator.writeBytes Memory.writeRange
  split
  · next empty =>
    -- An empty range is not checked: it may start anywhere.
    obtain rfl := List.isEmpty_iff.1 empty
    have stored := shadows.interpreter.stored address [] (.inr rfl)
    simp only [Memory.store_nil] at stored
    exact .ok { shadows with interpreter := stored }
  · split
    · exact .error _
    · next inside =>
      have inside := (outOfRange?_eq_none_iff.1 inside).1
      exact .ok { shadows with interpreter := shadows.interpreter.stored address data (.inl inside) }

theorem Shadows.perform (shadows : cached.Shadows plain) (request : Request) :
    Alike (cached.perform request) (plain.perform request) := by
  have memory := shadows.interpreter.machine.memory
  cases request with
  | reset => exact .of _ shadows.reset
  | load data name => exact shadows.settle_done _ (shadows.loadProgram data name)
  | loadRom path status => exact shadows.settle_done _ (shadows.loadRom path status)
  | step => exact alike_conclude _ _ shadows.step
  | tick => exact alike_conclude _ _ shadows.tick
  | run elapsed => exact alike_conclude _ _ (shadows.run elapsed)
  | runTicks ticks => exact alike_conclude _ _ (shadows.runTicks ticks)
  | runSteps limit => exact alike_conclude _ _ (shadows.runSteps limit)
  | runUntil address limit => exact alike_conclude _ _ (shadows.runUntil address limit)
  | addBreakpoint address => exact .of _ (shadows.onDebugger _)
  | removeBreakpoint address => exact .of _ (shadows.onDebugger _)
  | addWatchpoint address => exact .of _ (shadows.onDebugger _)
  | removeWatchpoint address => exact .of _ (shadows.onDebugger _)
  | clearBreakpoints => exact .of _ (shadows.onDebugger _)
  | pressKey name =>
    refine shadows.settle_done _ ((Agree.of_eq (x := name.key) rfl).map ?_)
    rintro k _ rfl
    exact shadows.onKeypad _
  | releaseKey name =>
    refine shadows.settle_done _ ((Agree.of_eq (x := name.key) rfl).map ?_)
    rintro k _ rfl
    exact shadows.onKeypad _
  | releaseAllKeys => exact .of _ (shadows.onKeypad _)
  | readByte address =>
    refine shadows.settle _ ((shadows.readByte address).map fun x y same => ?_)
    exact ⟨congrArg Answer.byte same.1, same.2⟩
  | readBytes address count =>
    refine shadows.settle _ ((shadows.readBytes address count).map fun x y same => ?_)
    exact ⟨congrArg Answer.bytes same.1, same.2⟩
  | writeByte address value =>
    -- A byte is written as its low eight bits, like a range of one byte.
    have written := shadows.writeBytes address [UInt8.ofInt value]
    rw [← writeByte_eq_writeBytes, ← writeByte_eq_writeBytes] at written
    exact shadows.settle_done _ written
  | writeBytes address data => exact shadows.settle_done _ (shadows.writeBytes address data)
  | setFrequency frequency =>
    have same := congrArg (Clock.setFrequency · frequency) shadows.clock
    refine shadows.settle_done _ ((Agree.of_eq same).map ?_)
    rintro clock _ rfl
    exact { shadows with clock := rfl }
  | displayText =>
    simp only [Emulator.perform, displayText, shadows.screen]
    exact .of _ shadows
  | takePixels =>
    simp only [Emulator.perform, takePixels, shadows.screen]
    exact .of _ (shadows.onScreen _)
  | render scale =>
    have same : cached.render scale = plain.render scale := by
      simp only [render, shadows.screen]
    refine shadows.settle _ ((Agree.of_eq same).map ?_)
    rintro image _ rfl
    exact ⟨rfl, shadows⟩
  | disassemble address count =>
    have same : cached.disassemble address count = plain.disassemble address count := by
      have bytes : cached.machine.memory.bytes = plain.machine.memory.bytes := memory.bytes
      simp only [disassemble, bytes]
    refine shadows.settle _ ((Agree.of_eq same).map ?_)
    rintro lines _ rfl
    exact ⟨rfl, shadows⟩

theorem Shadows.performAll (shadows : cached.Shadows plain) (requests : List Request) :
    Alike (cached.performAll requests) (plain.performAll requests) := by
  induction requests generalizing cached plain with
  | nil => exact .of _ shadows
  | cons request requests ih =>
    obtain ⟨outcome, left, right, served, served', follows⟩ := shadows.perform request
    obtain ⟨outcomes, left', right', rest, rest', follows'⟩ := ih follows
    simp only [Emulator.performAll, served, served', rest, rest']
    exact .of _ follows'

/-! ### The setting -/

def caching (e : Emulator) (on : Bool) : Emulator :=
  { e with
    settings := { e.settings with cacheDecoded := on }
    interpreter := { e.interpreter with cache := if on then some ∅ else none } }

/-- A new emulator caches if its settings say so. -/
theorem create_caching (settings : Settings) (screen : Screen) (keypad : Keypad) (entropy : Int)
    (on : Bool) : create { settings with cacheDecoded := on } screen keypad entropy =
      (create settings screen keypad entropy).map (·.caching on) := by
  match start : (Clock.start settings.frequency : Except (ClockError Quantity) SystemClock) with
  | .error error =>
    simp only [create, start]
    rfl
  | .ok clock =>
    simp only [create, start]
    cases on with
    | false => cases settings.cacheDecoded <;> rfl
    | true => cases settings.cacheDecoded <;> rfl

theorem shadows_caching (e : Emulator) : (e.caching true).Shadows (e.caching false) where
  interpreter := {
    machine := ⟨rfl, .refl _⟩
    coherent := by
      intro cache present
      obtain rfl := Option.some.inj present
      exact DecodeCache.sound_empty _
    uncached := rfl
    hooks := rfl
    observer := rfl
    stopRequested := rfl }
  frameSteps := rfl
  clock := rfl
  lastFault := rfl
  programName := rfl
  totalSteps := rfl
  totalTimerEvents := rfl
  journal := rfl

/-- Two emulators in the same state, but for the cache, its setting and the counters of reads. -/
structure SameButCache (cached plain : Emulator) : Prop where
  processor : cached.processor = plain.processor
  bytes : cached.machine.memory.bytes = plain.machine.memory.bytes
  -- Each byte was written as often, and read no more often.
  counts : cached.machine.memory.CountedAtMost plain.machine.memory
  screen : cached.machine.screen = plain.machine.screen
  keypad : cached.machine.keypad = plain.machine.keypad
  random : cached.machine.random = plain.machine.random
  hooks : cached.interpreter.hooks = plain.interpreter.hooks
  debugger : cached.debugger = plain.debugger
  stopRequested : cached.interpreter.stopRequested = plain.interpreter.stopRequested
  clock : cached.clock = plain.clock
  lastFault : cached.lastFault = plain.lastFault
  programName : cached.programName = plain.programName
  totalSteps : cached.totalSteps = plain.totalSteps
  totalTimerEvents : cached.totalTimerEvents = plain.totalTimerEvents
  journal : cached.journal = plain.journal

theorem Shadows.sameButCache (shadows : cached.Shadows plain) : cached.SameButCache plain where
  processor := shadows.processor
  bytes := shadows.interpreter.machine.memory.bytes
  counts := shadows.interpreter.machine.counts
  screen := shadows.screen
  keypad := by
    have same := congrArg Machine.keypad shadows.interpreter.machine.same
    exact same
  random := by
    have same := congrArg Machine.random shadows.interpreter.machine.same
    exact same
  hooks := shadows.interpreter.hooks
  debugger := shadows.debugger
  stopRequested := shadows.interpreter.stopRequested
  clock := shadows.clock
  lastFault := shadows.lastFault
  programName := shadows.programName
  totalSteps := shadows.totalSteps
  totalTimerEvents := shadows.totalTimerEvents
  journal := shadows.journal

/-- The same outcomes of some requests, and the same state left but for the cache. -/
def AgreeOn (cached plain : Emulator) (requests : List Request) : Prop :=
  (cached.performAll requests).1 = (plain.performAll requests).1 ∧
    SameButCache (cached.performAll requests).2 (plain.performAll requests).2

theorem Shadows.agreeOn (shadows : cached.Shadows plain) (requests : List Request) :
    cached.AgreeOn plain requests := by
  obtain ⟨outcomes, left, right, served, served', follows⟩ := shadows.performAll requests
  rw [AgreeOn, served, served']
  exact ⟨rfl, follows.sameButCache⟩

/-- Whether instructions are cached changes no outcome of any requests, and nothing that they leave
but the counters of reads. So two new emulators of settings that differ in caching alone agree, unless
neither can be made. -/
theorem performAll_caching (e : Emulator) (requests : List Request) :
    ((e.caching true).performAll requests).1 = ((e.caching false).performAll requests).1 ∧
      SameButCache ((e.caching true).performAll requests).2
        ((e.caching false).performAll requests).2 ∧
      ∀ (settings : Settings) (screen : Screen) (keypad : Keypad) (entropy : Int),
        Agree (fun cached plain => cached.AgreeOn plain requests)
          (create { settings with cacheDecoded := true } screen keypad entropy)
          (create { settings with cacheDecoded := false } screen keypad entropy) := by
  obtain ⟨outcomes, same⟩ := e.shadows_caching.agreeOn requests
  refine ⟨outcomes, same, fun settings screen keypad entropy => ?_⟩
  rw [create_caching settings screen keypad entropy true,
    create_caching settings screen keypad entropy false]
  cases create settings screen keypad entropy with
  | error error => exact .error error
  | ok new => exact .ok (new.shadows_caching.agreeOn requests)

end Chip8.Emulator
