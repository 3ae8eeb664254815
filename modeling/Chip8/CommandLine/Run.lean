import Chip8.AddressText
import Chip8.CommandLine.Run.Options
import Chip8.Emulator.Run
import Chip8.Folder

/-! The command that runs a program without a window.

Each frame hands the emulator the same simulated time, so a run with a seed can be repeated. Then the
screen, what stopped the run, the registers and a screenshot are shown as asked for.
-/

set_option autoImplicit false

namespace Chip8.CommandLine.Run

def settings (o : Options) (s : Settings) : Settings :=
  { s with
    frequency := (o.frequency.map Quantity.real).getD s.frequency
    seed := o.seed.or s.seed
    cacheDecoded := o.cacheDecoded || s.cacheDecoded }

def frameTime (framesPerSecond : Int) : Except Failure Float :=
  match Binary64.ofInt? framesPerSecond with
  | some rate => .ok (1000.0 / rate)
  | none => .error (.internal (ClockError.message .tooLarge))

/-- The number of frames nearest to a duration, ties to even. -/
def frameCount (duration frame : Float) : Except Failure Nat :=
  let quotient := duration / frame
  if quotient.isNaN then .error (.argument "cannot convert float NaN to integer")
  else if quotient.isInf then .error (.internal "cannot convert float infinity to integer")
  else
    let (num, den) := (Binary64.Parts.ofBits quotient.toBits.toNat).ratio
    .ok (Binary64.divideToEven num den)

/-- Run frames until one ends at a breakpoint. -/
def runFrames (fixedRate : Bool) (frame : Float) :
    Nat → Emulator → Except RunError (Option StopEvent) × Emulator
  | 0, e => (.ok none, e)
  | frames + 1, e =>
    let (result, e) :=
      if fixedRate then
        match e.tick with
        | (.ok event, e) => (.ok event, e)
        | (.error fault, e) => (.error (.fault fault), e)
      else e.run (.real frame)
    match result with
    | .error error => (.error error, e)
    | .ok event => if event.isBreak then (.ok (some event), e) else runFrames fixedRate frame frames e

def runFailure : RunError → Failure
  | .fault fault => .program fault.message
  | .clock error => .internal error.message

def loadFailure : LoadError → Failure
  | .pathTooLong path => .internal (LoadError.pathTooLong path).message
  | error => .program error.message

def renderFailure : RenderError → Failure
  | .scaleTooSmall scale => .argument (RenderError.scaleTooSmall scale).message
  | .pictureTooLarge => .argument (RenderError.message .pictureTooLarge)
  | error => .internal error.message

def registerLines (p : Processor) : List String := [
  " ".intercalate ((List.finRange 16).map fun x =>
    s!"V{Text.hex 1 x.val}={Text.hex 2 (p.get x).toNat}"),
  s!"PC={Text.hex 4 p.pc} I={Text.hex 4 p.index.toNat} DT={Text.hex 2 p.delay.toNat} " ++
    s!"ST={Text.hex 2 p.sound.toNat} SP={p.stack.length}"]

/-- A command at work: it prints and may fail. -/
abbrev Work := ExceptT Failure (StateM Console)

def print (change : Console → Console) : Work Unit :=
  modify change

def orFail {ε α : Type} (failure : ε → Failure) : Except ε α → Work α
  | .ok a => pure a
  | .error error => throw (failure error)

/-- Move the journal of an emulator to the console. -/
def printJournal (verbose : Bool) (e : Emulator) : Work Emulator := do
  let (journal, e) := e.takeJournal
  print (·.journal verbose journal)
  return e

/-- A loaded emulator with its keys held and its breakpoints set. -/
def prepare (o : Options) (environment : Settings.Environment) (files : Files) (entropy : Int) :
    Work Emulator := do
  let (given, journal) := Settings.ofEnvironment environment
  print (·.journal o.verbose journal)
  let e ← orFail (fun error => .argument error.message)
    (Emulator.create (settings o given) .blank .released entropy)
  let e ← printJournal o.verbose e
  let e ← orFail loadFailure (e.loadRom o.rom (files (PathText.normal o.rom)))
  let e ← printJournal o.verbose e
  let e ← o.keys.foldlM
    (fun e name => orFail (fun error => .argument error.message) (e.pressKey (.text name))) e
  o.breakpoints.foldlM
    (fun e text => do
      let address ← orFail (fun error => .argument error.message) (parseAddress text)
      return e.addBreakpoint address) e

/-- Show the screen, what stopped the run and the registers, as asked for. -/
def showEnd (o : Options) (e : Emulator) (stop : Option StopEvent) (c : Console) : Console :=
  let c := if o.noDisplay then c else c.printLine e.displayText
  let c := match stop with
    | some event => c.printLine s!"Stopped: {event.text}"
    | none => c
  if o.registers then (registerLines e.processor).foldl Console.printLine c else c

def saveScreenshot (o : Options) (files : Files) (e : Emulator) (path : String) : Work Unit := do
  let path := PathText.normal path
  let picture ← orFail renderFailure (e.render o.scale)
  match (files path).writeError? with
  | some .noSuchFile => throw (.argument (FileError.noSuchFile.message path))
  | some error => throw (.internal (error.message path))
  | none =>
    print fun c => { c with made := c.made ++ [(path, .picture picture)] }
    print (·.noteLine o.verbose s!"Screenshot written to: {path}")

def work (o : Options) (environment : Settings.Environment) (files : Files) (entropy : Int) :
    Work Unit := do
  let e ← prepare o environment files entropy
  -- Only now are the frames counted: a bad key or address is reported first.
  let frame ← orFail id (frameTime o.framesPerSecond)
  let frames ← orFail id (frameCount o.duration frame)
  let mode := if o.fixedRate then "tick" else e.settings.frequency.brief ++ " Hz"
  print (·.noteLine o.verbose s!"Running {PathText.name o.rom}: {frames} frames, {mode}")
  let (result, e) := runFrames o.fixedRate frame frames e
  let e ← printJournal o.verbose e
  let stop ← orFail runFailure result
  print (showEnd o e stop)
  match o.screenshot with
  | some path => saveScreenshot o files e path
  | none => pure ()
  print (·.noteLine o.verbose
    s!"Executed {e.totalSteps} steps, {e.totalTimerEvents} timer events")

def report (o : Options) (environment : Settings.Environment) (files : Files) (entropy : Int) :
    Report :=
  match (work o environment files entropy).run {} with
  | (.ok (), console) => { exitCode := 0, console }
  | (.error failure, console) =>
    { exitCode := failure.exitCode
      console := console.warnLine (failure.line "Emulation")
      wantsTrace := o.verbose && failure.exitCode = 3 }

def command (arguments : List String) (environment : Settings.Environment) (files : Files)
    (entropy : Int := 0) : Outcome :=
  match request files arguments with
  | .error error => .ofError error
  | .ok .version => .version "chip8run"
  | .ok .help => .help
  | .ok (.work o) => .done (report o environment files entropy)

end Chip8.CommandLine.Run
