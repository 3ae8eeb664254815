import Chip8.Quantity

/-! The clock that turns elapsed time into whole steps and whole timer events.

Steps come at the clock's frequency and timer events at 60 Hz. What does not fill a whole step or a
whole period is kept for the next call. The arithmetic is a parameter, so that the same clock can be
read over exact numbers.
-/

set_option autoImplicit false

namespace Chip8

/-- Amounts of steps and of milliseconds, as a clock keeps them. -/
class ClockAmount (ρ : Type) where
  zero : ρ
  add : ρ → ρ → ρ
  subtract : ρ → ρ → ρ
  reaches : (amount unit : ρ) → Bool
  oneStep : ρ
  /-- The milliseconds between two timer events. -/
  timerPeriod : ρ
  /-- How often a unit may be taken from an amount before the taking counts as endless. -/
  allowance : (amount unit : ρ) → Nat

/-- Times and frequencies, as hosts give them, and the amounts they stand for. -/
class ClockInput (ι : Type) (ρ : outParam Type) where
  isNegative : ι → Bool
  isNonpositive : ι → Bool
  milliseconds? : (elapsed : ι) → Option ρ
  /-- The steps due for a time at a frequency, a thousandth of their product. -/
  steps? : (elapsed frequency : ι) → Option ρ

structure Ticks where
  steps : Nat
  timerEvents : Nat
  deriving DecidableEq, Repr

inductive ClockError (ι : Type) where
  | nonpositiveFrequency (value : ι)
  | negativeElapsed (value : ι)
  /-- A whole number has no nearest amount. -/
  | tooLarge
  /-- Taking units from an amount does not end. -/
  | endless

structure Clock (ι ρ : Type) where
  frequency : ι
  stepRemainder : ρ
  timerRemainder : ρ

namespace Clock

variable {ι ρ : Type}

open ClockAmount ClockInput

/-- Take a unit from an amount as often as it fits; the result holds how often, counted from
`count` on, and what is left. -/
def drain [ClockAmount ρ] (unit : ρ) : (allowance count : Nat) → (amount : ρ) → Option (Nat × ρ)
  | 0, count, amount => if reaches amount unit then none else some (count, amount)
  | allowance + 1, count, amount =>
    if reaches amount unit then drain unit allowance (count + 1) (subtract amount unit)
    else some (count, amount)

variable [ClockAmount ρ] [ClockInput ι ρ]

def start (frequency : ι) : Except (ClockError ι) (Clock ι ρ) :=
  if isNonpositive frequency then .error (.nonpositiveFrequency frequency)
  else .ok ⟨frequency, zero, zero⟩

def setFrequency (c : Clock ι ρ) (frequency : ι) : Except (ClockError ι) (Clock ι ρ) :=
  if isNonpositive frequency then .error (.nonpositiveFrequency frequency)
  else .ok { c with frequency }

def reset (c : Clock ι ρ) : Clock ι ρ :=
  { c with stepRemainder := zero, timerRemainder := zero }

def advance (c : Clock ι ρ) (elapsed : ι) : Except (ClockError ι) (Ticks × Clock ι ρ) :=
  if isNegative elapsed then .error (.negativeElapsed elapsed)
  else match steps? elapsed c.frequency, milliseconds? elapsed with
    | some due, some time =>
      let steps := add c.stepRemainder due
      let timer := add c.timerRemainder time
      match drain oneStep (allowance steps oneStep) 0 steps,
          drain timerPeriod (allowance timer timerPeriod) 0 timer with
      | some (stepCount, stepRemainder), some (timerCount, timerRemainder) =>
        .ok (⟨stepCount, timerCount⟩, { c with stepRemainder, timerRemainder })
      | _, _ => .error .endless
    | _, _ => .error .tooLarge

end Clock

/-- Binary64 amounts. Below 2^53 units rounding cannot double the number of times that a unit fits;
beyond, taking a unit away may change nothing. -/
instance : ClockAmount Float where
  zero := 0.0
  add := (· + ·)
  subtract := (· - ·)
  reaches amount unit := unit ≤ amount
  oneStep := 1.0
  timerPeriod := 1000.0 / 60.0
  allowance amount unit :=
    let quotient := amount / unit
    if quotient < 9007199254740992.0 then 2 * quotient.toUInt64.toNat + 2 else 0

instance : ClockInput Quantity Float where
  isNegative := Quantity.isNegative
  isNonpositive := Quantity.isNonpositive
  milliseconds? := Quantity.toFloat?
  steps? elapsed frequency := do
    let product ← elapsed.product? frequency
    let product ← product.toFloat?
    return product / 1000.0

abbrev SystemClock := Clock Quantity Float

namespace SystemClock

def defaultFrequency : Quantity := .whole 600

def summary (c : SystemClock) : String :=
  s!"Clock(frequency={c.frequency.text})"

end SystemClock

def ClockError.message : ClockError Quantity → String
  | nonpositiveFrequency value => s!"Frequency must be positive, got {value.text}"
  | negativeElapsed value => s!"Elapsed time cannot be negative, got {value.text}"
  | tooLarge => "int too large to convert to float"
  | endless => "elapsed time does not end"

end Chip8
