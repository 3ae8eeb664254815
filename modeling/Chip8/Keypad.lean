import Chip8.Key
import Chip8.Text.Hex

/-! The sixteen-key pad: which keys are held. -/

set_option autoImplicit false

namespace Chip8

structure Keypad where
  held : Vector Bool 16
  deriving DecidableEq

namespace Keypad

def released : Keypad :=
  ⟨.replicate 16 false⟩

def press (p : Keypad) (k : Key) : Keypad :=
  ⟨p.held.set k true⟩

def release (p : Keypad) (k : Key) : Keypad :=
  ⟨p.held.set k false⟩

/-- Whether the key with a number is held. A number that names no key is not held. -/
def isDown (p : Keypad) (n : Int) : Bool :=
  match KeyName.keyOf? n with
  | some k => p.held[k]
  | none => false

def keys (p : Keypad) : List Key :=
  (List.finRange 16).filter fun k => p.held[k]

theorem mem_keys {p : Keypad} {k : Key} : k ∈ p.keys ↔ p.held[k] = true := by
  simp [keys]

def first? (p : Keypad) : Option Key :=
  p.keys.head?

def summary (p : Keypad) : String :=
  "Keyboard(pressed=[" ++ ",".intercalate (p.keys.map fun k => Text.hex 1 k.val) ++ "])"

end Keypad

end Chip8
