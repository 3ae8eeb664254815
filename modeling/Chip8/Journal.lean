/-! Journals: messages with a level, in the order in which they were written. -/

set_option autoImplicit false

namespace Chip8

inductive Level where
  | debug
  | info
  | warning
  | error
  deriving DecidableEq, Repr

namespace Level

def text : Level → String
  | debug => "DEBUG"
  | info => "INFO"
  | warning => "WARNING"
  | error => "ERROR"

/-- Whether a level is shown without being asked for. -/
def isUrgent : Level → Bool
  | debug | info => false
  | warning | error => true

end Level

structure Entry where
  level : Level
  message : String
  deriving DecidableEq, Repr

/-- Entries, oldest first. -/
abbrev Journal := Array Entry

end Chip8
