import Chip8.CommandLine.Arguments
import Chip8.Folder

/-! Paths among the arguments of a command. -/

set_option autoImplicit false

namespace Chip8.CommandLine

/-- Check a path to read from: something lies there, and it is no directory. -/
def checkReadable (files : Files) (path : String) : Except ArgumentError Unit :=
  match files path with
  | .holdsNul => .error .noPath
  | .found .directory => .error .badValue
  | .found _ => .ok ()
  | _ => .error .badValue

/-- Check a path to write to: no directory lies there. -/
def checkWritable (files : Files) (path : String) : Except ArgumentError Unit :=
  match files path with
  | .holdsNul => .error .noPath
  | .found .directory => .error .badValue
  | _ => .ok ()

/-- Read the value of an option that is a path to write to, if it is given. -/
def Arguments.readPath {κ : Type} [BEq κ] (a : Arguments κ) (key : κ) (files : Files) :
    Except ArgumentError (Option String) := do
  match a.value? key with
  | none => return none
  | some path =>
    checkWritable files path
    return some path

end Chip8.CommandLine
