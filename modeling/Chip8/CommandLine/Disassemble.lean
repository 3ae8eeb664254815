import Chip8.AddressText
import Chip8.CommandLine.PathArgument
import Chip8.CommandLine.Report
import Chip8.Listing
import Chip8.Word

/-! The command that lists a program. -/

set_option autoImplicit false

namespace Chip8.CommandLine.Disassemble

inductive OptionName where
  | output
  | address
  | count
  | noBytes
  | verbose
  | version
  | help
  deriving DecidableEq, Repr

def specs : List (OptionSpec OptionName) := [
  ⟨.output, some 'o', "output", true⟩,
  ⟨.address, some 'a', "address", true⟩,
  ⟨.count, some 'c', "count", true⟩,
  ⟨.noBytes, none, "no-bytes", false⟩,
  ⟨.verbose, some 'v', "verbose", false⟩,
  ⟨.version, none, "version", false⟩,
  ⟨.help, none, "help", false⟩]

structure Options where
  input : String
  output : Option String := none
  /-- The text of the address of the first byte. -/
  address : String := "0x200"
  count : Option Int := none
  noBytes : Bool := false
  verbose : Bool := false

/-- The first of the options that ask for something other than a listing. -/
def question? (a : Arguments OptionName) : Option (Request Options) :=
  a.options.findSome? fun (option, _) =>
    match option with
    | .version => some .version
    | .help => some .help
    | _ => none

/-- Set what an option stands for, with the value that the arguments give it. -/
def Options.set (files : Files) (a : Arguments OptionName) (o : Options) (name : OptionName) :
    Except ArgumentError Options := do
  match name with
  | .output => return { o with output := ← a.readPath name files }
  | .address => return { o with address := (a.value? name).getD o.address }
  | .count => return { o with count := ← a.readValue name Numeral.decimal? }
  | .noBytes => return { o with noBytes := true }
  | .verbose => return { o with verbose := true }
  | .version | .help => return o

/-- The options of a listing. They are read in the order in which they are given, and the operand
behind them; the first error counts. -/
def options (files : Files) (a : Arguments OptionName) : Except ArgumentError Options := do
  let o ← a.options.foldlM (fun o (name, _) => o.set files a name)
    { input := a.operands.headD "" }
  checkReadable files o.input
  if a.operands.length = 1 then return o else throw .operandCount

def request (files : Files) (arguments : List String) :
    Except ArgumentError (Request Options) := do
  let a ← Arguments.ofList specs arguments
  match question? a with
  | some question => return question
  | none => return .work (← options files a)

def paths (arguments : List String) : List String :=
  match Arguments.ofList specs arguments with
  | .ok a => a.operands ++ a.values .output
  | .error _ => []

def header (name : String) (size : Nat) (address : Int) : List String := [
  s!"; Disassembly of {name}",
  s!"; Size: {size} bytes",
  s!"; Base address: ${Text.hex 3 address}",
  ""]

/-- Every failure of this command has the same exit code. -/
def failed (console : Console) (message : String) : Report :=
  { exitCode := 1, console := console.warnLine message }

/-- List bytes that lie at an address inside memory. -/
def list (o : Options) (files : Files) (data : List UInt8) (address : Int) : Report :=
  let console : Console := {}
  let console := console.noteLine o.verbose
    s!"Input file: {PathText.normal o.input} ({data.length} bytes)"
  let console := console.noteLine o.verbose s!"Base address: ${Text.hex 3 address}"
  let lines := Listing.ofBytes data address o.count (!o.noBytes)
  let text := "\n".intercalate (header (PathText.name o.input) data.length address ++ lines) ++ "\n"
  let finish (console : Console) : Report :=
    { exitCode := 0
      console := console.noteLine o.verbose s!"Instructions disassembled: {lines.length}" }
  match o.output.map PathText.normal with
  | none => finish (console.print text)
  | some path =>
    match (files path).writeError? with
    -- Notes that were printed before stay.
    | some error => failed console s!"Error writing {path}: {error.message path}"
    | none =>
      let console := { console with made := console.made ++ [(path, Artifact.text text)] }
      finish (console.noteLine o.verbose s!"Output written to: {path}")

def report (o : Options) (files : Files) (data : List UInt8) : Report :=
  match parseAddress o.address with
  | .error error => failed {} s!"Error: {error.message}"
  | .ok address =>
    if address < 0 || 0xFFF < address then
      failed {} "Error: Address must be 0-4095 (0x000-0xFFF)"
    else if data.isEmpty then failed {} s!"Error: {PathText.normal o.input} is empty"
    else list o files data address

def command (arguments : List String) (files : Files) : Outcome :=
  match request files arguments with
  | .error error => .ofError error
  | .ok .version => .version "chip8dis"
  | .ok .help => .help
  | .ok (.work o) =>
    match files o.input with
    | .found (.file data) => .done (report o files data)
    -- From a device there is nothing to list.
    | _ => .done (report o files [])

end Chip8.CommandLine.Disassemble
