import Chip8.CommandLine.PathArgument
import Chip8.CommandLine.Report
import Chip8.Emulator.Host

/-! The options of the command that runs a program. -/

set_option autoImplicit false

namespace Chip8.CommandLine.Run

inductive OptionName where
  | stepsPerSecond
  | duration
  | framesPerSecond
  | fixedRate
  | seed
  | key
  | stopAt
  | screenshot
  | scale
  | cacheDecoded
  | registers
  | noDisplay
  | verbose
  | version
  | help
  deriving DecidableEq, Repr

def specs : List (OptionSpec OptionName) := [
  ⟨.stepsPerSecond, some 'c', "cps", true⟩,
  ⟨.duration, some 'd', "duration", true⟩,
  ⟨.framesPerSecond, some 'f', "fps", true⟩,
  ⟨.fixedRate, some 't', "tick-mode", false⟩,
  ⟨.seed, none, "seed", true⟩,
  ⟨.key, some 'k', "key", true⟩,
  ⟨.stopAt, some 'b', "break", true⟩,
  ⟨.screenshot, some 's', "screenshot", true⟩,
  ⟨.scale, some 'z', "scale", true⟩,
  ⟨.cacheDecoded, none, "cache-decoded", false⟩,
  ⟨.registers, some 'r', "registers", false⟩,
  ⟨.noDisplay, none, "no-display", false⟩,
  ⟨.verbose, some 'v', "verbose", false⟩,
  ⟨.version, none, "version", false⟩,
  ⟨.help, none, "help", false⟩]

structure Options where
  rom : String
  /-- Steps per second, if not those of the settings. -/
  frequency : Option Float := none
  /-- Simulated milliseconds. -/
  duration : Float := 1000.0
  framesPerSecond : Int := 60
  /-- Run frames of a fixed number of steps. -/
  fixedRate : Bool := false
  seed : Option Int := none
  keys : List String := []
  breakpoints : List String := []
  screenshot : Option String := none
  scale : Int := Emulator.defaultScale
  cacheDecoded : Bool := false
  registers : Bool := false
  noDisplay : Bool := false
  verbose : Bool := false

/-- A real numeral that a test does not reject. -/
def realUnless (reject : Float → Bool) (text : String) : Option Float :=
  (Numeral.real? text).filter fun x => !reject x

def positive? (text : String) : Option Int :=
  (Numeral.decimal? text).filter (1 ≤ ·)

/-- The first of the options that ask for something other than a run. -/
def question? (a : Arguments OptionName) : Option (Request Options) :=
  a.options.findSome? fun (option, _) =>
    match option with
    | .version => some .version
    | .help => some .help
    | _ => none

/-- Set what an option stands for, with all values that the arguments give it. -/
def Options.set (files : Files) (a : Arguments OptionName) (o : Options) (name : OptionName) :
    Except ArgumentError Options := do
  match name with
  | .stepsPerSecond => return { o with frequency := ← a.readValue name (realUnless (· ≤ 0)) }
  | .duration =>
    return { o with duration := (← a.readValue name (realUnless (· < 0))).getD o.duration }
  | .framesPerSecond =>
    return { o with framesPerSecond := (← a.readValue name positive?).getD o.framesPerSecond }
  | .fixedRate => return { o with fixedRate := true }
  | .seed => return { o with seed := ← a.readValue name Numeral.decimal? }
  | .key => return { o with keys := a.values name }
  | .stopAt => return { o with breakpoints := a.values name }
  | .screenshot => return { o with screenshot := ← a.readPath name files }
  | .scale => return { o with scale := (← a.readValue name positive?).getD o.scale }
  | .cacheDecoded => return { o with cacheDecoded := true }
  | .registers => return { o with registers := true }
  | .noDisplay => return { o with noDisplay := true }
  | .verbose => return { o with verbose := true }
  | .version | .help => return o

/-- The options of a run. They are read in the order in which they are given, and the operand behind
them; the first error counts. -/
def options (files : Files) (a : Arguments OptionName) : Except ArgumentError Options := do
  let o ← a.options.foldlM (fun o (name, _) => o.set files a name)
    { rom := a.operands.headD "" }
  checkReadable files o.rom
  if a.operands.length = 1 then return o else throw .operandCount

def request (files : Files) (arguments : List String) :
    Except ArgumentError (Request Options) := do
  let a ← Arguments.ofList specs arguments
  match question? a with
  | some question => return question
  | none => return .work (← options files a)

def paths (arguments : List String) : List String :=
  match Arguments.ofList specs arguments with
  | .ok a => a.operands ++ a.values .screenshot
  | .error _ => []

end Chip8.CommandLine.Run
