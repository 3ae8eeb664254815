import Chip8.AddressSet
import Chip8.StopEvent

/-! Breakpoints and write watchpoints.

A breakpoint stops before its instruction. The check that follows a stop lets the same address pass
once, so that a run can be resumed; any other check takes that pass away.
-/

set_option autoImplicit false

namespace Chip8

structure Debugger where
  breakpoints : AddressSet := .empty
  watchpoints : AddressSet := .empty
  lastEvent : Option StopEvent := none
  /-- The breakpoint that the next check lets pass. -/
  pass : Option Int := none
  deriving DecidableEq

namespace Debugger

def addBreakpoint (d : Debugger) (address : Int) : Debugger :=
  { d with breakpoints := d.breakpoints.insert address }

def removeBreakpoint (d : Debugger) (address : Int) : Debugger :=
  { d with breakpoints := d.breakpoints.erase address }

def addWatchpoint (d : Debugger) (address : Int) : Debugger :=
  { d with watchpoints := d.watchpoints.insert address }

def removeWatchpoint (d : Debugger) (address : Int) : Debugger :=
  { d with watchpoints := d.watchpoints.erase address }

def clearEvent (d : Debugger) : Debugger :=
  { d with lastEvent := none }

/-- Arm again the breakpoint that the next check would let pass. -/
def clearPass (d : Debugger) : Debugger :=
  { d with pass := none }

def clearAll (_ : Debugger) : Debugger :=
  {}

/-- Check the address of an instruction that is about to run; `false` stops before it. -/
def checkInstruction (d : Debugger) (pc : Int) : Bool × Debugger :=
  if pc ∈ d.breakpoints then
    -- The pass is for one check only.
    if d.pass = some pc then (true, d.clearPass)
    else (false, { d with pass := some pc, lastEvent := some { reason := .breakpoint pc } })
  else (true, d.clearPass)

/-- Check a byte that an instruction has written; `false` asks to stop after the instruction. -/
def checkWrite (d : Debugger) (address value : Int) : Bool × Debugger :=
  if address ∈ d.watchpoints then
    (false, { d with lastEvent := some { reason := .write address value } })
  else (true, d)

end Debugger

end Chip8
