import Chip8.CommandLine.Arguments
import Chip8.Journal
import Chip8.Picture
import Chip8.Text.ControlSequence

/-! What a command prints, makes and answers.

A failure is the fault of the program that was run, of the arguments, or of neither; that decides
the exit code. What is printed loses its control sequences; journals and files keep theirs.
-/

set_option autoImplicit false

namespace Chip8.CommandLine

inductive Failure where
  /-- The program cannot be loaded or cannot go on. -/
  | program (message : String)
  /-- An argument is wrong or a file cannot be used. -/
  | argument (message : String)
  | internal (message : String)
  deriving DecidableEq, Repr

namespace Failure

def exitCode : Failure → Nat
  | program _ => 1
  | argument _ => 2
  | internal _ => 3

/-- The line shown for a failure. The failure of a program may name the activity that failed. -/
def line (activity : String) : Failure → String
  | program message => (if activity.isEmpty then "Error: " else s!"{activity} error: ") ++ message
  | argument message => s!"Error: {message}"
  | internal message => s!"Internal error: {message}"

end Failure

inductive Artifact where
  | text (content : String)
  | picture (content : Picture)

structure Console where
  out : String := ""
  err : String := ""
  made : List (String × Artifact) := []

namespace Console

def print (c : Console) (text : String) : Console :=
  { c with out := c.out ++ Text.ControlSequence.plain text }

def printLine (c : Console) (text : String) : Console :=
  c.print (text ++ "\n")

def warnLine (c : Console) (text : String) : Console :=
  { c with err := c.err ++ Text.ControlSequence.plain text ++ "\n" }

/-- Print a line of error output only if asked for. -/
def noteLine (c : Console) (verbose : Bool) (text : String) : Console :=
  if verbose then c.warnLine text else c

/-- The name under which journals are shown. -/
def journalName : String := "chip8_emu.emulator.emulator"

/-- Print the entries of a journal, all of them or only the urgent ones. -/
def journal (c : Console) (verbose : Bool) (journal : Journal) : Console :=
  journal.foldl
    (fun c entry =>
      if verbose || entry.level.isUrgent then
        { c with err := c.err ++ s!"{entry.level.text} {journalName}: {entry.message}\n" }
      else c)
    c

end Console

structure Report where
  exitCode : Nat
  console : Console
  /-- Whether more than the message of an internal failure was asked for. -/
  wantsTrace : Bool := false

inductive Outcome where
  /-- It shows how it is used, for want of arguments that it understands. -/
  | usage
  | help
  /-- It stops at a text that no path can be. -/
  | noPath
  | done (report : Report)

def Outcome.ofError (error : ArgumentError) : Outcome :=
  match error, error.message? with
  | .noPath, _ => .noPath
  | _, none => .usage
  | _, some message =>
    .done { exitCode := 2, console := Console.warnLine {} s!"Error: {message}" }

inductive Request (α : Type) where
  | version
  | help
  | work (options : α)

def Outcome.version (name : String) : Outcome :=
  .done { exitCode := 0, console := Console.printLine {} s!"{name}, version 1.0.0" }

end Chip8.CommandLine
