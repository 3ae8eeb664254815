import Chip8.Proofs.FrameRun
import Chip8.Proofs.PlainText
import Chip8.Proofs.ScreenViews

/-! What the command that runs a program comes to, frame by frame.

A program of any bytes either cannot be loaded, or comes to a step that fails, or goes on until the
frames are over or a breakpoint stops it. The first two are the failures that the command tells of
with exit code 1; otherwise it shows the machine at the end.
-/

set_option autoImplicit false

namespace Chip8

open Text.ControlSequence

namespace CommandLine

/-! ### Printing -/

namespace Console

def lines (texts : List String) : String :=
  String.join (texts.map (· ++ "\n"))

/-- A console that has only shown more on its error output. -/
def Warned (before after : Console) : Prop :=
  after.out = before.out ∧ after.made = before.made

variable {c d f : Console}

theorem Warned.refl (c : Console) : c.Warned c := ⟨rfl, rfl⟩

theorem Warned.trans (first : c.Warned d) (second : d.Warned f) : c.Warned f :=
  ⟨second.1.trans first.1, second.2.trans first.2⟩

theorem warned_noteLine (c : Console) (verbose : Bool) (text : String) :
    c.Warned (c.noteLine verbose text) := by
  unfold noteLine
  split
  · exact ⟨rfl, rfl⟩
  · exact .refl c

theorem warned_journal (c : Console) (verbose : Bool) (journal : Journal) :
    c.Warned (c.journal verbose journal) := by
  unfold Console.journal
  rw [← Array.foldl_toList]
  generalize journal.toList = entries
  induction entries generalizing c with
  | nil => exact .refl c
  | cons entry entries ih =>
    rw [List.foldl_cons]
    refine Warned.trans ?_ (ih _)
    split
    · exact ⟨rfl, rfl⟩
    · exact .refl c

theorem printLine_of_isPlain {text : String} (isPlain : IsPlain text) (c : Console) :
    c.printLine text = { c with out := c.out ++ lines [text] } := by
  have line : IsPlain (text ++ "\n") := isPlain_append.2 ⟨isPlain, by decide⟩
  simp [printLine, Console.print, plain_eq_self line, lines]

theorem foldl_printLine {texts : List String} (each : ∀ text ∈ texts, IsPlain text) (c : Console) :
    texts.foldl printLine c = { c with out := c.out ++ lines texts } := by
  induction texts generalizing c with
  | nil => simp [lines]
  | cons text texts ih =>
    obtain ⟨here, rest⟩ := List.forall_mem_cons.1 each
    rw [List.foldl_cons, printLine_of_isPlain here, ih rest]
    simp [lines, String.append_assoc]

end Console

namespace Run

/-! ### Work -/

section Work

variable {α β : Type} {w : Work α} {next : α → Work β} {c d : Console}

theorem run_bind_of_ok {a : α} (ran : w.run c = (.ok a, d)) :
    (w >>= next).run c = (next a).run d := by
  change (ExceptT.bind w next).run c = _
  simp only [ExceptT.run] at ran
  simp only [ExceptT.bind, ExceptT.run, ExceptT.mk, bind, StateT.bind, ran]
  rfl

theorem run_bind_of_error {failure : Failure} (ran : w.run c = (.error failure, d)) :
    (w >>= next).run c = (.error failure, d) := by
  change (ExceptT.bind w next).run c = _
  simp only [ExceptT.run] at ran
  simp only [ExceptT.bind, ExceptT.run, ExceptT.mk, bind, StateT.bind, ran]
  rfl

theorem run_print (change : Console → Console) : (print change).run c = (.ok (), change c) := rfl

theorem run_orFail_ok {ε : Type} (failure : ε → Failure) (a : α) :
    (orFail failure (.ok a)).run c = (.ok a, c) := rfl

theorem run_orFail_error {ε : Type} (failure : ε → Failure) (error : ε) :
    (orFail failure (.error error) : Work α).run c = (.error (failure error), c) := rfl

theorem run_printJournal (verbose : Bool) (e : Emulator) :
    (printJournal verbose e).run c = (.ok e.takeJournal.2, c.journal verbose e.journal) := rfl

end Work

/-! ### The start of a run -/

def atPowerOn (seed : Int) : Machine memorySize where
  processor := .powerOn
  memory := (Memory.zeros memorySize false).store 0 glyphs
  screen := .blank
  keypad := .released
  random := .ofSeed seed

/-- A keypad with more keys held. A text that names no key holds none. -/
def pressAll (names : List String) (p : Keypad) : Keypad :=
  (names.filterMap fun name => (KeyName.text name).key.toOption).foldl Keypad.press p

theorem pressAll_cons {name : String} {k : Key} (known : (KeyName.text name).key = .ok k)
    (names : List String) (p : Keypad) :
    pressAll (name :: names) p = pressAll names (p.press k) := by
  simp only [pressAll, List.filterMap_cons, known, Except.toOption, List.foldl_cons]

namespace Options

def StopsAt (o : Options) (address : Int) : Prop :=
  ∃ text ∈ o.breakpoints, parseAddress text = .ok address

def start (o : Options) (data : List UInt8) (entropy : Int) : Machine memorySize :=
  let m := atPowerOn (o.seed.getD entropy)
  { m with memory := m.memory.store programStart data, keypad := pressAll o.keys m.keypad }

/-- How the run of a program ends, in so many frames of ten steps. -/
def Plays (o : Options) (data : List UInt8) (entropy : Int) (frames : Nat) :
    Ending memorySize → Prop :=
  Ends o.StopsAt ((o.start data entropy).framed 10) (10 * frames)

end Options

variable {o : Options} {environment : Settings.Environment} {files : Files} {entropy : Int}
  {data : List UInt8} {c : Console} {e : Emulator}

theorem ofEnvironment_of_unset (unset : ∀ name ∈ Settings.names, environment name = none) :
    Settings.ofEnvironment environment = ({}, #[]) := by
  have skipped {α : Type} {name : String} (member : name ∈ Settings.names)
      (read : String → Option α) (use : Settings → α → Settings) (state : Settings × Journal) :
      Settings.apply environment name read use state = state := by
    simp only [Settings.apply, Settings.lookup, unset name member]
    rfl
  unfold Settings.ofEnvironment
  rw [skipped (by decide), skipped (by decide), skipped (by decide), skipped (by decide)]

structure Prepared (e : Emulator) (m : Machine memorySize) (stops : Int → Prop) : Prop where
  armed : e.Armed
  frameSteps : e.settings.frameSteps = (10 : Nat)
  machine : e.machine = m
  breakpoints : ∀ a, a ∈ e.debugger.breakpoints ↔ stops a

variable {m : Machine memorySize} {stops : Int → Prop}

theorem Prepared.takeJournal (prepared : Prepared e m stops) : Prepared e.takeJournal.2 m stops :=
  ⟨⟨prepared.armed.ready, prepared.armed.pass, prepared.armed.watchpoints⟩, prepared.frameSteps,
    prepared.machine, prepared.breakpoints⟩

/-- A run without settings of its own creates an emulator at power-on. -/
theorem exists_created (usual : o.frequency = none) (entropy : Int) :
    ∃ e, Emulator.create (settings o {}) .blank .released entropy = .ok e ∧
      Prepared e (atPowerOn (o.seed.getD entropy)) fun _ => False := by
  have seed : (settings o {}).seed = o.seed := Option.or_none
  obtain ⟨clock, start⟩ : ∃ clock : SystemClock,
      Clock.start (settings o {}).frequency = .ok clock := by
    rw [settings, usual]
    exact ⟨_, rfl⟩
  obtain ⟨e, created⟩ :
      ∃ e, Emulator.create (settings o {}) .blank .released entropy = .ok e := by
    rw [Emulator.create, start]
    exact ⟨_, rfl⟩
  refine ⟨e, created, ?_⟩
  have ready := Emulator.ready_of_create created
  rw [Emulator.create, start, seed] at created
  cases created
  exact ⟨⟨ready, rfl, rfl⟩, rfl, rfl, fun a => iff_false_intro (AddressSet.not_mem_empty a)⟩

theorem loadRom_of_tooLarge (e : Emulator) (path : String) (large : maxProgramSize < data.length) :
    e.loadRom path (.found (.file data)) = .error (.tooLarge (PathText.name path) data.length) := by
  have nonempty : ¬ data.isEmpty = true := by
    rintro empty
    rw [List.isEmpty_iff.1 empty] at large
    cases large
  rw [Emulator.loadRom, Emulator.loadProgram, if_neg nonempty, if_pos large]

theorem exists_loaded (prepared : Prepared e m stops) (path : String) (nonempty : data ≠ [])
    (fits : ¬ maxProgramSize < data.length) :
    ∃ left, e.loadRom path (.found (.file data)) = .ok left ∧
      Prepared left { m with memory := m.memory.store programStart data } stops := by
  have present : ¬ data.isEmpty = true := fun empty => nonempty (List.isEmpty_iff.1 empty)
  obtain ⟨left, loaded⟩ : ∃ left, e.loadRom path (.found (.file data)) = .ok left := by
    rw [Emulator.loadRom, Emulator.loadProgram, if_neg present, if_neg fits]
    exact ⟨_, rfl⟩
  refine ⟨left, loaded, ?_⟩
  have ready := Emulator.Ready.loadRom prepared.armed.ready loaded
  obtain ⟨⟨-, pass, watchpoints⟩, frameSteps, rfl, breakpoints⟩ := prepared
  rw [Emulator.loadRom, Emulator.loadProgram, if_neg present, if_neg fits] at loaded
  cases loaded
  exact ⟨⟨ready, pass, watchpoints⟩, frameSteps, rfl, breakpoints⟩

theorem run_pressKeys {names : List String}
    (valid : ∀ name ∈ names, ∃ k, (KeyName.text name).key = .ok k) (prepared : Prepared e m stops)
    (c : Console) :
    ∃ left, (names.foldlM (fun e name => orFail (fun error => .argument error.message)
        (e.pressKey (.text name))) e : Work Emulator).run c = (.ok left, c) ∧
      Prepared left { m with keypad := pressAll names m.keypad } stops := by
  induction names generalizing e m with
  | nil => exact ⟨e, rfl, prepared⟩
  | cons name names ih =>
    obtain ⟨⟨k, known⟩, rest⟩ := List.forall_mem_cons.1 valid
    have pressed :
        Prepared (e.onKeypad (·.press k)) { m with keypad := m.keypad.press k } stops := by
      obtain ⟨⟨ready, pass, watchpoints⟩, frameSteps, rfl, breakpoints⟩ := prepared
      exact ⟨⟨ready.of_bytes_eq rfl rfl rfl rfl, pass, watchpoints⟩, frameSteps, rfl, breakpoints⟩
    have here : (orFail (fun error : KeyError => .argument error.message)
        (e.pressKey (.text name))).run c = (.ok (e.onKeypad (·.press k)), c) := by
      rw [Emulator.pressKey, known]
      rfl
    obtain ⟨left, ran, prepared⟩ := ih rest pressed
    refine ⟨left, ?_, ?_⟩
    · rw [List.foldlM_cons, run_bind_of_ok here, ran]
    · rw [pressAll_cons known]
      exact prepared

theorem run_setBreakpoints {texts : List String}
    (valid : ∀ text ∈ texts, ∃ a, parseAddress text = .ok a) (prepared : Prepared e m stops)
    (c : Console) :
    ∃ left, (texts.foldlM (fun e text => do
        let address ← orFail (fun error => .argument error.message) (parseAddress text)
        return e.addBreakpoint address) e : Work Emulator).run c = (.ok left, c) ∧
      Prepared left m fun a => stops a ∨ ∃ text ∈ texts, parseAddress text = .ok a := by
  induction texts generalizing e stops with
  | nil => exact ⟨e, rfl, by simpa using prepared⟩
  | cons text texts ih =>
    obtain ⟨⟨address, known⟩, rest⟩ := List.forall_mem_cons.1 valid
    have set :
        Prepared (e.addBreakpoint address) m fun a => stops a ∨ parseAddress text = .ok a := by
      obtain ⟨⟨ready, pass, watchpoints⟩, frameSteps, machine, breakpoints⟩ := prepared
      have ready := Emulator.Ready.onDebugger ready (·.addBreakpoint address)
      refine ⟨⟨ready, pass, watchpoints⟩, frameSteps, machine, fun a => ?_⟩
      have inserted : a ∈ (e.addBreakpoint address).debugger.breakpoints ↔
          a = address ∨ a ∈ e.debugger.breakpoints := AddressSet.mem_insert
      rw [inserted, breakpoints, known, Except.ok.injEq, or_comm, eq_comm]
    have here : (orFail (fun error : AddressError => .argument error.message) (parseAddress text) >>=
        fun address => pure (e.addBreakpoint address) : Work Emulator).run c =
          (.ok (e.addBreakpoint address), c) := by
      rw [known]
      rfl
    obtain ⟨left, ran, prepared⟩ := ih rest set
    refine ⟨left, ?_, ?_⟩
    · rw [List.foldlM_cons, run_bind_of_ok here, ran]
    · simpa only [List.mem_cons, exists_eq_or_imp, or_assoc] using prepared

/-- A run whose frames have a fixed number of steps. Its keys and addresses can be read, it saves no
picture, and nothing around it sets anything. -/
structure FixedRun (o : Options) (environment : Settings.Environment) (files : Files)
    (data : List UInt8) : Prop where
  fixedRate : o.fixedRate = true
  frequency : o.frequency = none
  screenshot : o.screenshot = none
  keys : ∀ name ∈ o.keys, ∃ k, (KeyName.text name).key = .ok k
  breakpoints : ∀ text ∈ o.breakpoints, ∃ a, parseAddress text = .ok a
  unset : ∀ name ∈ Settings.names, environment name = none
  rom : files (PathText.normal o.rom) = .found (.file data)

theorem FixedRun.run_prepare_of_error (fixed : FixedRun o environment files data) (entropy : Int)
    {error : LoadError}
    (failed : ∀ e : Emulator, e.loadRom o.rom (.found (.file data)) = .error error) :
    ∃ d, (prepare o environment files entropy).run {} = (.error (loadFailure error), d) ∧
      Console.Warned {} d := by
  obtain ⟨e, created, -⟩ := exists_created fixed.frequency entropy
  unfold prepare
  rw [ofEnvironment_of_unset fixed.unset, fixed.rom]
  dsimp only
  rw [run_bind_of_ok (run_print _), created, run_bind_of_ok (run_orFail_ok _ _),
    run_bind_of_ok (run_printJournal _ _), failed, run_bind_of_error (run_orFail_error _ _)]
  exact ⟨_, rfl, (Console.warned_journal {} _ _).trans (Console.warned_journal _ _ _)⟩

theorem FixedRun.run_prepare (fixed : FixedRun o environment files data) (entropy : Int)
    (nonempty : data ≠ []) (fits : ¬ maxProgramSize < data.length) :
    ∃ e d, (prepare o environment files entropy).run {} = (.ok e, d) ∧ Console.Warned {} d ∧
      Prepared e (o.start data entropy) o.StopsAt := by
  obtain ⟨e, created, prepared⟩ := exists_created fixed.frequency entropy
  obtain ⟨loaded, load, prepared⟩ := exists_loaded prepared.takeJournal o.rom nonempty fits
  obtain ⟨holding, hold, prepared⟩ := run_pressKeys fixed.keys prepared.takeJournal _
  obtain ⟨ready, set, prepared⟩ := run_setBreakpoints fixed.breakpoints prepared _
  unfold prepare
  rw [ofEnvironment_of_unset fixed.unset, fixed.rom]
  dsimp only
  rw [run_bind_of_ok (run_print _), created, run_bind_of_ok (run_orFail_ok _ _),
    run_bind_of_ok (run_printJournal _ _), load, run_bind_of_ok (run_orFail_ok _ _),
    run_bind_of_ok (run_printJournal _ _), run_bind_of_ok hold, set]
  refine ⟨ready, _, rfl, ?_, ?_⟩
  · exact ((Console.warned_journal {} _ _).trans (Console.warned_journal _ _ _)).trans
      (Console.warned_journal _ _ _)
  · simp only [false_or] at prepared
    exact prepared

def Options.shown (o : Options) (stopped : Bool) (m : Machine memorySize) : List String :=
  (if o.noDisplay then [] else [m.screen.text "#" "."]) ++
    (if stopped then [s!"Stopped: Breakpoint at ${Text.hex 4 m.processor.pc}"] else []) ++
      (if o.registers then registerLines m.processor else [])

/-- The two lines of the registers. Digits stand behind the names: two for a general register or a
timer, and at least four for the program counter and the index register. The depth of the stack is
decimal. -/
inductive ShowsRegisters (p : Processor) : List String → Prop where
  | intro {v : Fin 16 → String} {pc index delay sound : String}
      (general : ∀ x, Text.IsHex 2 (p.get x).toNat (v x).toList)
      (counter : Text.IsHex 4 p.pc pc.toList) (address : Text.IsHex 4 p.index.toNat index.toList)
      (delayed : Text.IsHex 2 p.delay.toNat delay.toList)
      (sounding : Text.IsHex 2 p.sound.toNat sound.toList) :
      ShowsRegisters p [
        " ".intercalate ((List.finRange 16).map fun x =>
          "V" ++ .singleton (Text.hexAlphabet.get x) ++ "=" ++ v x),
        "PC=" ++ pc ++ " I=" ++ index ++ " DT=" ++ delay ++ " ST=" ++ sound ++ " SP=" ++
          toString p.stack.length]

theorem hex_one_eq_singleton :
    ∀ x : Fin 16, Text.hex 1 x.val = .singleton (Text.hexAlphabet.get x) := by
  decide +kernel

theorem registerLines_shows (p : Processor) : ShowsRegisters p (registerLines p) := by
  have digits (width : Nat) (n : Int) := Text.isHex_toList_hex width n
  have shows := ShowsRegisters.intro (p := p) (fun x => digits 2 (p.get x).toNat) (digits 4 p.pc)
    (digits 4 p.index.toNat) (digits 2 p.delay.toNat) (digits 2 p.sound.toNat)
  have blank : " ST=" = " " ++ "ST=" := by decide +kernel
  simp only [blank, ← hex_one_eq_singleton, String.append_assoc] at shows
  simp only [registerLines, String.append_assoc]
  exact shows

/-! ### The end of a run -/

theorem isPlain_registerLines (p : Processor) : ∀ line ∈ registerLines p, IsPlain line := by
  intro line member
  rw [registerLines, List.mem_cons, List.mem_singleton] at member
  rcases member with rfl | rfl
  · refine isPlain_intercalate (by decide) fun register member => ?_
    obtain ⟨x, -, rfl⟩ := List.mem_map.1 member
    simp only [isPlain_append]
    exact ⟨⟨⟨by decide, isPlain_hex 1 _⟩, by decide⟩, isPlain_hex 2 _⟩
  · simp only [isPlain_append]
    exact ⟨⟨⟨⟨⟨⟨⟨by decide, isPlain_hex 4 _⟩, by decide⟩, isPlain_hex 4 _⟩, by decide⟩,
      isPlain_hex 2 _⟩, by decide⟩, ⟨⟨by decide, isPlain_hex 2 _⟩, by decide⟩, isPlain_toString _⟩

theorem isPlain_shown (o : Options) (stopped : Bool) (m : Machine memorySize) :
    ∀ line ∈ o.shown stopped m, IsPlain line := by
  intro line member
  rw [Options.shown, List.mem_append, List.mem_append] at member
  rcases member with (screen | stop) | registers
  · split at screen
    · cases screen
    · obtain rfl := List.mem_singleton.1 screen
      exact m.screen.isPlain_text (by decide) (by decide)
  · split at stop
    · obtain rfl := List.mem_singleton.1 stop
      exact isPlain_append.2 ⟨by decide, isPlain_hex 4 _⟩
    · cases stop
  · split at registers
    · exact isPlain_registerLines m.processor line registers
    · cases registers

def stopEvent (stopped : Bool) (m : Machine memorySize) : Option StopEvent :=
  if stopped then some { reason := .breakpoint m.processor.pc } else none

theorem showEnd_eq (o : Options) (e : Emulator) (stopped : Bool) (c : Console) :
    showEnd o e (stopEvent stopped e.machine) c =
      { c with out := c.out ++ Console.lines (o.shown stopped e.machine) } := by
  rw [← Console.foldl_printLine (isPlain_shown o stopped e.machine)]
  unfold showEnd Options.shown
  cases o.noDisplay <;> cases stopped <;> cases o.registers <;> rfl

inductive Shows (o : Options) : Ending memorySize → Except Failure Unit × Console → Prop where
  | finished {m : Machine memorySize} {c : Console} (out : c.out = Console.lines (o.shown false m))
      (made : c.made = []) : Shows o (.finished m) (.ok (), c)
  | stopped {m : Machine memorySize} {c : Console} (out : c.out = Console.lines (o.shown true m))
      (made : c.made = []) : Shows o (.stopped m) (.ok (), c)
  | failed {fault : Fault} {c : Console} (out : c.out = "") (made : c.made = []) :
      Shows o (.failed fault) (.error (.program fault.message), c)

theorem warned_showEnd (left : Emulator) (stopped : Bool) {c d : Console}
    (quiet : Console.Warned {} c)
    (noted : (showEnd o left (stopEvent stopped left.machine) c).Warned d) :
    d.out = Console.lines (o.shown stopped left.machine) ∧ d.made = [] := by
  rw [showEnd_eq] at noted
  obtain ⟨out, made⟩ := noted
  refine ⟨?_, made.trans quiet.2⟩
  rw [out, quiet.1, String.empty_append]

theorem FixedRun.run_work_of_error (fixed : FixedRun o environment files data) (entropy : Int)
    {error : LoadError}
    (failed : ∀ e : Emulator, e.loadRom o.rom (.found (.file data)) = .error error) :
    ∃ d, (work o environment files entropy).run {} = (.error (loadFailure error), d) ∧
      Console.Warned {} d := by
  obtain ⟨d, ran, warned⟩ := fixed.run_prepare_of_error entropy failed
  exact ⟨d, run_bind_of_error ran, warned⟩

theorem FixedRun.run_work (fixed : FixedRun o environment files data) (entropy : Int)
    {frame : Float} {frames : Nat} (time : frameTime o.framesPerSecond = .ok frame)
    (count : frameCount o.duration frame = .ok frames) (nonempty : data ≠ [])
    (fits : ¬ maxProgramSize < data.length) :
    ∃ ending, o.Plays data entropy frames ending ∧
      Shows o ending ((work o environment files entropy).run {}) := by
  obtain ⟨e, d, ran, warned, prepared⟩ := fixed.run_prepare entropy nonempty fits
  obtain ⟨ending, told, ends⟩ :=
    prepared.armed.runFrames prepared.frameSteps (by decide) frame frames
  have stops : (· ∈ e.debugger.breakpoints) = o.StopsAt :=
    funext fun a => propext (prepared.breakpoints a)
  have start : e.machine.bare = o.start data entropy := by
    rw [prepared.machine]
    rfl
  rw [stops, start] at ends
  refine ⟨ending, ends, ?_⟩
  unfold work
  rw [run_bind_of_ok ran, time, run_bind_of_ok (run_orFail_ok _ _), count,
    run_bind_of_ok (run_orFail_ok _ _), run_bind_of_ok (run_print _), fixed.fixedRate]
  generalize runFrames true frame frames e = result at told
  -- Up to the end there are only notes and the journal, and both go to the error output.
  have quiet (text : String) (left : Emulator) :
      Console.Warned {} ((d.noteLine o.verbose text).journal o.verbose left.journal) :=
    (warned.trans (Console.warned_noteLine _ _ _)).trans (Console.warned_journal _ _ _)
  cases told with
  | finished left =>
    dsimp only
    rw [run_bind_of_ok (run_printJournal _ _), run_bind_of_ok (run_orFail_ok _ _),
      run_bind_of_ok (run_print _), fixed.screenshot]
    obtain ⟨out, made⟩ := warned_showEnd left.takeJournal.2 false
      (quiet _ left) (Console.warned_noteLine _ _ _)
    exact .finished out made
  | stopped left =>
    dsimp only
    rw [run_bind_of_ok (run_printJournal _ _), run_bind_of_ok (run_orFail_ok _ _),
      run_bind_of_ok (run_print _), fixed.screenshot]
    obtain ⟨out, made⟩ := warned_showEnd left.takeJournal.2 true
      (quiet _ left) (Console.warned_noteLine _ _ _)
    exact .stopped out made
  | failed fault left =>
    dsimp only
    rw [run_bind_of_ok (run_printJournal _ _), run_bind_of_error (run_orFail_error _ _)]
    exact .failed (quiet _ left).1 (quiet _ left).2

/-! ### The report of a run -/

/-- The texts that tell of a run that fails. The name of the program is shown without control
sequences. -/
inductive Options.Tells (o : Options) (data : List UInt8) (entropy : Int) (frames : Nat) :
    String → Prop where
  | empty (none : data = []) :
      Tells o data entropy frames (LoadError.empty (plain (PathText.name o.rom))).message
  | tooLarge (large : maxProgramSize < data.length) :
      Tells o data entropy frames
        (LoadError.tooLarge (plain (PathText.name o.rom)) data.length).message
  | fault {f : Fault} (nonempty : data ≠ []) (fits : data.length ≤ maxProgramSize)
      (fails : o.Plays data entropy frames (.failed f)) : Tells o data entropy frames f.message

/-- What a run with the bytes of a program reports: it fails, or it shows the machine at its end. -/
structure Reported (o : Options) (data : List UInt8) (entropy : Int) (frames : Nat) (r : Report) :
    Prop where
  exitCode : r.exitCode = 0 ∨ r.exitCode = 1
  fails_iff : r.exitCode = 1 ↔ data = [] ∨ maxProgramSize < data.length ∨
    ∃ f, o.Plays data entropy frames (.failed f)
  failure : r.exitCode = 1 → r.console.out = "" ∧ ∃ before text, o.Tells data entropy frames text ∧
    r.console.err = before ++ "Emulation error: " ++ text ++ "\n"
  success : r.exitCode = 0 → ∃ m,
    (o.Plays data entropy frames (.finished m) ∧ r.console.out = Console.lines (o.shown false m) ∨
      o.Plays data entropy frames (.stopped m) ∧ r.console.out = Console.lines (o.shown true m)) ∧
    m.screen.TextShows '#' '.' ∧ ShowsRegisters m.processor (registerLines m.processor)
  made : r.console.made = []
  trace : r.wantsTrace = false

variable {frames : Nat}

theorem report_of_failed {message : String}
    (ran : (work o environment files entropy).run {} = (.error (.program message), c)) :
    report o environment files entropy =
      { exitCode := 1, console := { c with
          err := c.err ++ "Emulation error: " ++ plain message ++ "\n" } } := by
  have line : plain (Failure.line "Emulation" (.program message)) =
      "Emulation error: " ++ plain message := plain_append (by decide)
  simp only [report, ran, Failure.exitCode, Console.warnLine, line, String.append_assoc]
  simp

theorem reported_of_unloadable {message : String} (quiet : Console.Warned {} c)
    (ran : (work o environment files entropy).run {} = (.error (.program message), c))
    (unloadable : data = [] ∨ maxProgramSize < data.length)
    (tells : o.Tells data entropy frames (plain message)) :
    Reported o data entropy frames (report o environment files entropy) := by
  rw [report_of_failed ran]
  exact ⟨.inr rfl, iff_of_true rfl (unloadable.imp_right .inl),
    fun _ => ⟨quiet.1, c.err, _, tells, rfl⟩, nofun, quiet.2, rfl⟩

theorem report_of_done (ran : (work o environment files entropy).run {} = (.ok (), c)) :
    report o environment files entropy = { exitCode := 0, console := c } := by
  simp only [report, ran]

/-- A run that ends without a fault fails in no way. -/
theorem not_fails_of_plays (nonempty : data ≠ []) (fits : ¬ maxProgramSize < data.length)
    {ending : Ending memorySize} (plays : o.Plays data entropy frames ending)
    (well : ∀ f, ending ≠ .failed f) :
    ¬ (data = [] ∨ maxProgramSize < data.length ∨
      ∃ f, o.Plays data entropy frames (.failed f)) := by
  rintro (none | large | ⟨f, fails⟩)
  · exact nonempty none
  · exact fits large
  · exact well f (plays.unique fails)

theorem shows_end (m : Machine memorySize) :
    m.screen.TextShows '#' '.' ∧ ShowsRegisters m.processor (registerLines m.processor) :=
  ⟨m.screen.text_shows (by decide) (by decide) (by decide), registerLines_shows m.processor⟩

theorem reported_of_loadable (nonempty : data ≠ []) (fits : ¬ maxProgramSize < data.length)
    {ending : Ending memorySize} (plays : o.Plays data entropy frames ending)
    (shows : Shows o ending ((work o environment files entropy).run {})) :
    Reported o data entropy frames (report o environment files entropy) := by
  generalize ran : (work o environment files entropy).run {} = result at shows
  cases shows with
  | @finished m c out made =>
    have well := not_fails_of_plays nonempty fits plays nofun
    rw [report_of_done ran]
    exact ⟨.inl rfl, iff_of_false Nat.zero_ne_one well, nofun,
      fun _ => ⟨m, .inl ⟨plays, out⟩, shows_end m⟩, made, rfl⟩
  | @stopped m c out made =>
    have well := not_fails_of_plays nonempty fits plays nofun
    rw [report_of_done ran]
    exact ⟨.inl rfl, iff_of_false Nat.zero_ne_one well, nofun,
      fun _ => ⟨m, .inr ⟨plays, out⟩, shows_end m⟩, made, rfl⟩
  | @failed f c out made =>
    have tells : o.Tells data entropy frames f.message :=
      .fault nonempty (Nat.le_of_not_lt fits) plays
    rw [report_of_failed ran, plain_eq_self f.isPlain_message]
    exact ⟨.inr rfl, iff_of_true rfl (.inr (.inr ⟨f, plays⟩)),
      fun _ => ⟨out, c.err, _, tells, rfl⟩, nofun, made, rfl⟩

/-- A program of any bytes is run to the end of its frames or to a breakpoint, and the machine there
is shown, unless it cannot be loaded or a step fails; that is told, and is the only failure. -/
theorem command_reports (fixed : FixedRun o environment files data) {frame : Float}
    (time : frameTime o.framesPerSecond = .ok frame)
    (count : frameCount o.duration frame = .ok frames) (entropy : Int) :
    Reported o data entropy frames (report o environment files entropy) ∧
      ∀ arguments, request files arguments = .ok (.work o) →
        command arguments environment files entropy =
          .done (report o environment files entropy) := by
  refine ⟨?_, fun arguments asked => by simp only [command, asked]⟩
  by_cases empty : data = []
  · have failed (e : Emulator) :
        e.loadRom o.rom (.found (.file data)) = .error (.empty (PathText.name o.rom)) := by
      rw [empty]
      rfl
    obtain ⟨c, ran, quiet⟩ := fixed.run_work_of_error entropy failed
    refine reported_of_unloadable quiet ran (.inl empty) ?_
    rw [LoadError.plain_message_empty]
    exact .empty empty
  · by_cases large : maxProgramSize < data.length
    · have failed (e : Emulator) := loadRom_of_tooLarge e o.rom large
      obtain ⟨c, ran, quiet⟩ := fixed.run_work_of_error entropy failed
      refine reported_of_unloadable quiet ran (.inr large) ?_
      rw [LoadError.plain_message_tooLarge]
      exact .tooLarge large
    · obtain ⟨ending, plays, shows⟩ := fixed.run_work entropy time count empty large
      exact reported_of_loadable empty large plays shows

/-! ### A run to a breakpoint -/

def jumpOn : List UInt8 :=
  [0x60, 0x05, 0xA3, 0x00, 0x12, 0x04]

def withProgram : Files := fun path =>
  if path = "rom.ch8" then .found (.file jumpOn) else .absent

def toBreakpoint : List String :=
  ["-t", "-r", "--no-display", "-k", "5", "-b", "0x204", "--seed", "7", "-d", "50", "rom.ch8"]

def options? : Except ArgumentError (CommandLine.Request Options) → Option Options
  | .ok (.work o) => some o
  | _ => none

theorem eq_work_of_options? {result : Except ArgumentError (CommandLine.Request Options)}
    {o : Options} (found : options? result = some o) : result = .ok (.work o) := by
  unfold options? at found
  split at found
  · cases found
    rfl
  · cases found

def shown? : Outcome → Option (Nat × String)
  | .done r => some (r.exitCode, r.console.out)
  | _ => none

/-- Three frames, of which the first comes to the breakpoint. -/
theorem command_reports_toBreakpoint : ∃ o r, request withProgram toBreakpoint = .ok (.work o) ∧
    FixedRun o (fun _ => none) withProgram jumpOn ∧
    command toBreakpoint (fun _ => none) withProgram 0 = .done r ∧ Reported o jumpOn 0 3 r ∧
    r.exitCode = 0 ∧ r.console.out = "Stopped: Breakpoint at $0204\n" ++
      "V0=05 V1=00 V2=00 V3=00 V4=00 V5=00 V6=00 V7=00 " ++
      "V8=00 V9=00 VA=00 VB=00 VC=00 VD=00 VE=00 VF=00\n" ++
      "PC=0204 I=0300 DT=00 ST=00 SP=0\n" := by
  obtain ⟨o, asked⟩ : ∃ o, options? (request withProgram toBreakpoint) = some o :=
    Option.isSome_iff_exists.1 (by decide +kernel)
  have given : (options? (request withProgram toBreakpoint)).map (fun o =>
      (o.rom, o.keys, o.breakpoints)) = some ("rom.ch8", ["5"], ["0x204"]) := by decide +kernel
  have usual : (options? (request withProgram toBreakpoint)).map (fun o =>
      (o.fixedRate, o.frequency.isSome, o.screenshot.isSome)) = some (true, false, false) := by
    decide +kernel
  have frames : (options? (request withProgram toBreakpoint)).bind (fun o =>
      (frameTime o.framesPerSecond).toOption.bind fun frame =>
        (frameCount o.duration frame).toOption) = some 3 := by decide +kernel
  rw [asked] at given usual frames
  simp only [Option.map_some, Option.some.injEq, Prod.mk.injEq, Option.isSome_eq_false_iff,
    Option.isNone_iff_eq_none] at given usual
  obtain ⟨rom, keys, breakpoints⟩ := given
  obtain ⟨fixedRate, frequency, screenshot⟩ := usual
  rw [Option.bind_some] at frames
  obtain ⟨frame, time, count⟩ := Option.bind_eq_some_iff.1 frames
  have five : (KeyName.text "5").key = .ok 5 := eq_ok_of_toOption (by decide +kernel)
  have there : parseAddress "0x204" = .ok 0x204 := eq_ok_of_toOption (by decide +kernel)
  have fixed : FixedRun o (fun _ => none) withProgram jumpOn := by
    refine ⟨fixedRate, frequency, screenshot, ?_, ?_, fun _ _ => rfl, ?_⟩
    · rw [keys]
      exact List.forall_mem_singleton.2 ⟨5, five⟩
    · rw [breakpoints]
      exact List.forall_mem_singleton.2 ⟨0x204, there⟩
    · rw [rom]
      exact if_pos (by decide +kernel)
  have asked := eq_work_of_options? asked
  obtain ⟨reported, runs⟩ := command_reports fixed (eq_ok_of_toOption time)
    (eq_ok_of_toOption count) 0
  have ran := runs toBreakpoint asked
  refine ⟨o, _, asked, fixed, ran, reported, ?_⟩
  have shown : shown? (command toBreakpoint (fun _ => none) withProgram 0) =
      some (0, "Stopped: Breakpoint at $0204\n" ++
        "V0=05 V1=00 V2=00 V3=00 V4=00 V5=00 V6=00 V7=00 " ++
        "V8=00 V9=00 VA=00 VB=00 VC=00 VD=00 VE=00 VF=00\n" ++
        "PC=0204 I=0300 DT=00 ST=00 SP=0\n") := by
    decide +kernel
  rw [ran] at shown
  exact Prod.mk.inj (Option.some.inj shown)

end Run

end CommandLine

end Chip8
