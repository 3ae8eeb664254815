import Chip8.Clock
import Chip8.Interpreter
import Chip8.Journal
import Chip8.Numeral.Integer
import Chip8.Numeral.Real
import Chip8.Text.Quoted

/-! Settings of an emulator, and how the environment changes them. -/

set_option autoImplicit false

namespace Chip8

structure Settings where
  /-- Steps per second of elapsed time. -/
  frequency : Quantity := SystemClock.defaultFrequency
  frameSteps : Int := defaultFrameSteps
  /-- The seed of the random bytes; without one they differ from run to run. -/
  seed : Option Int := none
  cacheDecoded : Bool := false
  watchMemory : Bool := false

namespace Settings

/-- An environment: the text of each variable that is set. -/
abbrev Environment := String → Option String

def names : List String :=
  ["CHIP8_FREQUENCY", "CHIP8_CYCLES_PER_TICK", "CHIP8_SEED", "CHIP8_CACHE_DECODED"]

def lookup (environment : Environment) (name : String) : Option String :=
  (environment name).filter fun text => !text.isEmpty

/-- A message that a variable does not have the form that it needs. -/
def ignored (name text : String) : Entry :=
  ⟨.warning, s!"Ignoring invalid {name}={Text.quoted text}"⟩

/-- Read a variable, if it is set, and use what was read; a text that cannot be read is noted. -/
def apply {α : Type} (environment : Environment) (name : String) (read : String → Option α)
    (use : Settings → α → Settings) (state : Settings × Journal) : Settings × Journal :=
  match lookup environment name with
  | none => state
  | some text =>
    match read text with
    | some value => (use state.1 value, state.2)
    | none => (state.1, state.2.push (ignored name text))

/-- Whether a text says yes. Any other text says no. -/
def isYes (text : String) : Bool :=
  ["1", "true", "yes", "on"].contains
    (String.ofList ((Text.trim text.toList).map Char.toLower))

/-- The settings that an environment asks for. A frequency that is not positive is passed over in
silence. -/
def ofEnvironment (environment : Environment) : Settings × Journal :=
  ({}, #[])
    |> apply environment "CHIP8_FREQUENCY" Numeral.real?
      (fun s x => if 0 < x then { s with frequency := .real x } else s)
    |> apply environment "CHIP8_CYCLES_PER_TICK" Numeral.decimal?
      (fun s n => { s with frameSteps := n })
    |> apply environment "CHIP8_SEED" Numeral.decimal? (fun s n => { s with seed := some n })
    |> apply environment "CHIP8_CACHE_DECODED" some (fun s t => { s with cacheDecoded := isYes t })

end Settings

end Chip8
