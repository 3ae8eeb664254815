import Chip8.Text.Hex

/-! Why execution stopped. -/

set_option autoImplicit false

namespace Chip8

/-- The reasons for a stop. All but the write watchpoint carry the program counter at the stop. -/
inductive StopReason where
  | unspecified
  | breakpoint (pc : Int)
  | write (address value : Int)
  | step (pc : Int)
  | frame (pc : Int)
  | stepLimit (pc : Int)
  | elapsed (pc : Int)
  | awaitingKey (pc : Int)
  deriving DecidableEq, Repr

namespace StopReason

def text : StopReason → String
  | unspecified => "Unknown"
  | breakpoint pc => s!"Breakpoint at ${Text.hex 4 pc}"
  | write address value => s!"Write ${Text.hex 2 value} to ${Text.hex 4 address}"
  | step _ => "Single step"
  | frame _ => "Frame complete"
  | stepLimit _ => "Maximum steps reached"
  | elapsed _ => "Elapsed time consumed"
  | awaitingKey _ => "Waiting for key"

def address? : StopReason → Option Int
  | unspecified => none
  | breakpoint pc | step pc | frame pc | stepLimit pc | elapsed pc | awaitingKey pc => some pc
  | write address _ => some address

def value? : StopReason → Option Int
  | write _ value => some value
  | _ => none

end StopReason

/-- A stop, with a message of its own if that is not empty. -/
structure StopEvent where
  reason : StopReason
  message : String := ""
  deriving DecidableEq, Repr

namespace StopEvent

def text (e : StopEvent) : String :=
  if e.message.isEmpty then e.reason.text else e.message

/-- Whether a breakpoint or a watchpoint asked for the stop. -/
def isBreak (e : StopEvent) : Bool :=
  match e.reason with
  | .breakpoint _ | .write _ _ => true
  | _ => false

end StopEvent

end Chip8
