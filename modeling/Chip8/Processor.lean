import Chip8.Word

/-! The processor: registers, program counter, index, timers, call stack and the wait for a key.

The program counter is an integer that nothing masks; a fetch outside memory is a fault. Operations
that set the flag do so before they write their result, so a result kept in the flag register wins.
-/

set_option autoImplicit false

namespace Chip8

/-- Where programs are loaded and start. -/
def programStart : Nat := 0x200

structure Processor where
  v : Vector UInt8 16 := .replicate 16 0
  index : UInt16 := 0
  pc : Int := programStart
  delay : UInt8 := 0
  sound : UInt8 := 0
  /-- Return addresses, most recent first. -/
  stack : List Int := []
  /-- Whether the program waits for a key. -/
  waiting : Bool := false
  /-- The register that the key goes to. -/
  keyRegister : Register := .first
  deriving DecidableEq

namespace Processor

def powerOn : Processor := {}

def get (p : Processor) (x : Register) : UInt8 :=
  p.v[x]

def set (p : Processor) (x : Register) (value : UInt8) : Processor :=
  { p with v := p.v.set x value }

@[simp] theorem get_set_self (p : Processor) (x : Register) (value : UInt8) :
    (p.set x value).get x = value := by
  simp [get, set]

theorem get_set_of_ne (p : Processor) {x y : Register} (value : UInt8) (other : y ≠ x) :
    (p.set x value).get y = p.get y := by
  have distinct : x.val ≠ y.val := fun same => other (Fin.ext same.symm)
  simp [get, set, distinct]

def setFlag (p : Processor) (on : Bool) : Processor :=
  p.set .flag (if on then 1 else 0)

def skipIf (p : Processor) (test : Bool) : Processor :=
  if test then { p with pc := p.pc + 2 } else p

/-- Add `y` to `x`; the flag is the carry. -/
def add (p : Processor) (x y : Register) : Processor :=
  let a := p.get x
  let b := p.get y
  (p.setFlag (255 < a.toNat + b.toNat)).set x (a + b)

/-- Subtract `y` from `x`; the flag tells that `x` was the greater. -/
def subtract (p : Processor) (x y : Register) : Processor :=
  let a := p.get x
  let b := p.get y
  (p.setFlag (b < a)).set x (a - b)

/-- Subtract `x` from `y` and keep the difference in `y`; the flag tells that `y` was the greater. -/
def subtractFrom (p : Processor) (x y : Register) : Processor :=
  let a := p.get x
  let b := p.get y
  (p.setFlag (a < b)).set y (b - a)

/-- Halve `x`; the flag is the bit shifted out. -/
def shiftRight (p : Processor) (x : Register) : Processor :=
  let a := p.get x
  (p.setFlag (a.toNat % 2 = 1)).set x (a >>> 1)

/-- Double `x`; the flag is the bit shifted out. -/
def shiftLeft (p : Processor) (x : Register) : Processor :=
  let a := p.get x
  (p.setFlag (128 ≤ a.toNat)).set x (a <<< 1)

/-- Add `x` to the index; the flag is the carry. -/
def addIndex (p : Processor) (x : Register) : Processor :=
  -- The register is read before the flag is set, which may be the same register.
  let sum := p.index.toNat + (p.get x).toNat
  { p.setFlag (65535 < sum) with index := UInt16.ofNat sum }

def call (p : Processor) (target : Address) : Processor :=
  { p with stack := p.pc :: p.stack, pc := target.val }

/-- The decimal digits of a register, hundreds first. -/
def decimalDigits (p : Processor) (x : Register) : List UInt8 :=
  let a := p.get x
  [a / 100, a / 10 % 10, a % 10]

def firstRegisters (p : Processor) (x : Register) : List UInt8 :=
  p.v.toList.take (x.val + 1)

/-- Put values into the registers from 0 on. -/
def setFirst (p : Processor) (values : List UInt8) : Processor :=
  { p with v := (values.zipIdx).foldl (fun v (value, i) => v.setIfInBounds i value) p.v }

/-- Put a number into a register, which keeps its low eight bits. -/
def put (p : Processor) (x : Register) (value : Int) : Processor :=
  p.set x (UInt8.ofInt value)

/-- Put a number into the index, which keeps its low sixteen bits. -/
def putIndex (p : Processor) (value : Int) : Processor :=
  { p with index := UInt16.ofInt value }

def putDelay (p : Processor) (value : Int) : Processor :=
  { p with delay := UInt8.ofInt value }

def putSound (p : Processor) (value : Int) : Processor :=
  { p with sound := UInt8.ofInt value }

/-- A timer event: each timer that runs counts down by one. -/
def countDown (p : Processor) : Processor :=
  { p with
    delay := if p.delay = 0 then 0 else p.delay - 1
    sound := if p.sound = 0 then 0 else p.sound - 1 }

theorem toNat_countDown (timer : UInt8) :
    (if timer = 0 then 0 else timer - 1).toNat = timer.toNat - 1 := by
  by_cases zero : timer = 0
  · rw [if_pos zero, zero]
    rfl
  · have positive : 1 ≤ timer := by
      rw [UInt8.le_iff_toNat_le]
      have : timer.toNat ≠ 0 := fun same => zero (UInt8.toNat_inj.1 same)
      exact Nat.pos_of_ne_zero this
    rw [if_neg zero, UInt8.toNat_sub_of_le _ _ positive]
    rfl

end Processor

end Chip8
