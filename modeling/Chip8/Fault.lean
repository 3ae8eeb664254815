import Chip8.Text.Hex

/-! Faults: what stops a program, and where.

The part that fails knows the cause; the place is filled in on the way out. Places and addresses are
plain integers, because a host may ask for any address.
-/

set_option autoImplicit false

namespace Chip8

/-- An access outside a memory of `size` bytes. -/
structure OutOfRange where
  address : Int
  size : Int
  deriving DecidableEq, Repr

inductive Cause where
  | unknownOpcode (opcode : Int)
  | stackUnderflow
  | addressOutOfRange (access : OutOfRange)
  deriving DecidableEq, Repr

namespace Cause

def label : Cause → String
  | unknownOpcode _ => "unknown opcode"
  | stackUnderflow => "stack underflow"
  | addressOutOfRange _ => "address out of range"

def text : Cause → String
  | unknownOpcode opcode => s!"unknown opcode ${Text.hex 4 opcode}"
  | stackUnderflow => "return with empty call stack"
  | addressOutOfRange access =>
    s!"address ${Text.hex 4 access.address} outside memory (size ${Text.hex 4 access.size})"

/-- An unknown opcode tells itself. -/
def opcode? : Cause → Option Int
  | unknownOpcode opcode => some opcode
  | _ => none

end Cause

/-- A cause with the address and word of the instruction that failed, as far as they are known. -/
structure Fault where
  cause : Cause
  pc : Option Int
  opcode : Option Int
  deriving DecidableEq, Repr

namespace Fault

def ofCause (cause : Cause) : Fault :=
  ⟨cause, none, cause.opcode?⟩

/-- Fill in the place of a fault where it is not known yet. -/
def locate (f : Fault) (pc : Int) (opcode : Option Int) : Fault :=
  { f with pc := f.pc.or (some pc), opcode := f.opcode.or opcode }

/-- The message names the place only if it is known. -/
def message (f : Fault) : String :=
  match f.pc with
  | some pc => s!"${Text.hex 4 pc}: error: {f.cause.text}"
  | none => s!"error: {f.cause.text}"

end Fault

end Chip8
