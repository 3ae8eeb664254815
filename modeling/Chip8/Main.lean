import Chip8.CommandLine.Disassemble
import Chip8.CommandLine.Run
import Chip8.Picture.Png

/-! The program: `run` runs a program without a window, and `dis` lists one. -/

set_option autoImplicit false

namespace Chip8.CommandLine

def usage : String :=
  "Usage: chip8 run [OPTIONS] ROM_FILE\n       chip8 dis [OPTIONS] INPUT_FILE"

/-- Options of both commands, with what they mean. -/
def help : String :=
  "\n".intercalate [
    usage,
    "",
    "Options of run:",
    "  -c, --cps FLOAT        Instructions per second",
    "  -d, --duration FLOAT   Simulated run time in milliseconds (1000)",
    "  -f, --fps INTEGER      Host frames per simulated second (60)",
    "  -t, --tick-mode        Run frames of a fixed number of steps",
    "  --seed INTEGER         Seed of the random bytes",
    "  -k, --key TEXT         Key held for the whole run; may be repeated",
    "  -b, --break TEXT       Stop before this address; may be repeated",
    "  -s, --screenshot FILE  Save the final display as a picture",
    "  -z, --scale INTEGER    Screenshot pixel scale (8)",
    "  --cache-decoded        Cache decoded instructions",
    "  -r, --registers        Print register values after the run",
    "  --no-display           Do not print the display",
    "",
    "Options of dis:",
    "  -o, --output FILE      Output file",
    "  -a, --address TEXT     Address of the first byte (0x200)",
    "  -c, --count INTEGER    The most lines that are listed",
    "  --no-bytes             Omit the words in hexadecimal",
    "",
    "Options of both:",
    "  -v, --verbose          Tell more",
    "  --version              Show the version",
    "  --help                 Show this text"]

/-- What a path leads to. -/
def pathStatus (path : String) : IO PathStatus := do
  if path.toList.contains '\x00' then return .holdsNul
  match ← (IO.FS.readBinFile path).toBaseIO with
  | .ok data => return .found (.file data.toList)
  | .error (.inappropriateType _ 21 _) => return .found .directory
  | .error (.invalidArgument _ 36 _) => return .tooLong
  | .error (.noFileOrDirectory ..) =>
    match (PathText.normal path).splitOn "/" with
    | [_] => return .absent
    | parts =>
      match ← (IO.FS.readBinFile ("/".intercalate parts.dropLast)).toBaseIO with
      | .error (.inappropriateType _ 21 _) => return .absent
      | _ => return .noParent
  | .error _ => return .throughFile

/-- What the given paths lead to, also in the form in which they are shown. -/
def lookAt (paths : List String) : IO Files := do
  let known ← (paths ++ paths.map PathText.normal).mapM fun path =>
    return (path, ← pathStatus path)
  return fun path => (known.lookup path).getD .noParent

/-- The environment, as far as settings look at it. -/
def readEnvironment : IO Settings.Environment := do
  let known ← Settings.names.mapM fun name => return (name, ← IO.getEnv name)
  return fun name => (known.lookup name).join

def writeArtifact : String × Artifact → IO Unit
  | (path, .text content) => IO.FS.writeFile path content
  | (path, .picture content) => IO.FS.writeBinFile path ⟨content.png.toArray⟩

def finish : Outcome → IO UInt32
  | .usage => do
    (← IO.getStderr).putStr (usage ++ "\n")
    return 2
  | .help => do
    (← IO.getStdout).putStr (help ++ "\n")
    return 0
  | .noPath => do
    (← IO.getStderr).putStr (FileError.message "" .holdsNul ++ "\n")
    return 2
  | .done report => do
    report.console.made.forM writeArtifact
    (← IO.getStdout).putStr report.console.out
    (← IO.getStderr).putStr report.console.err
    return UInt32.ofNat report.exitCode

end Chip8.CommandLine

open Chip8 Chip8.CommandLine in
def main (arguments : List String) : IO UInt32 := do
  match arguments with
  | "run" :: arguments =>
    let files ← lookAt (Run.paths arguments)
    let entropy := (← IO.getRandomBytes 8).foldl (fun n b => n * 256 + b.toNat) 0
    finish (Run.command arguments (← readEnvironment) files entropy)
  | "dis" :: arguments =>
    finish (Disassemble.command arguments (← lookAt (Disassemble.paths arguments)))
  | ["--help"] => finish .help
  | _ => finish .usage
