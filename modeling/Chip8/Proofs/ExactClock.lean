import Chip8.Clock
import Mathlib.Data.Rat.Floor
import Mathlib.Tactic.FieldSimp
import Mathlib.Tactic.Linarith
import Mathlib.Tactic.Positivity
import Mathlib.Tactic.Ring

/-! The clock over exact numbers.

Read over the rational numbers, the clock neither loses nor invents time: what it has given out
since a reset and what it keeps make up the work and the time that were due, and it keeps less than
a step and less than a timer period. How the time is sliced therefore does not matter.
-/

set_option autoImplicit false

namespace Chip8

instance : ClockAmount ℚ where
  zero := 0
  add := (· + ·)
  subtract := (· - ·)
  reaches amount unit := unit ≤ amount
  oneStep := 1
  timerPeriod := 1000 / 60
  allowance amount unit := ⌊amount / unit⌋₊

instance : ClockInput ℚ ℚ where
  isNegative elapsed := elapsed < 0
  isNonpositive frequency := frequency ≤ 0
  milliseconds? := some
  steps? elapsed frequency := some (elapsed * frequency / 1000)

abbrev ExactClock := Clock ℚ ℚ

/-! ### Taking units from an amount -/

/-- A unit fits into an amount so often, and this is left. -/
structure Divided (unit amount : ℚ) (fits : Nat) (left : ℚ) : Prop where
  whole : fits * unit + left = amount
  nonneg : 0 ≤ left
  less : left < unit

namespace Divided

variable {unit amount left : ℚ} {fits : Nat}

theorem none (nonneg : 0 ≤ amount) (less : amount < unit) : Divided unit amount 0 amount where
  whole := by ring
  nonneg := nonneg
  less := less

theorem succ (rest : Divided unit (amount - unit) fits left) :
    Divided unit amount (fits + 1) left where
  whole := by
    have := rest.whole
    push_cast
    linarith
  nonneg := rest.nonneg
  less := rest.less

/-- What is left may be divided again together with more. -/
theorem trans {more left' : ℚ} {fits' : Nat} (earlier : Divided unit amount fits left)
    (later : Divided unit (left + more) fits' left') :
    Divided unit (amount + more) (fits + fits') left' where
  whole := by
    have := earlier.whole
    have := later.whole
    push_cast
    linarith
  nonneg := later.nonneg
  less := later.less

theorem fits_eq (divided : Divided unit amount fits left) : fits = ⌊amount / unit⌋₊ := by
  have nonneg := divided.nonneg
  have positive : 0 < unit := lt_of_le_of_lt nonneg divided.less
  have quotient : amount / unit = fits + left / unit := by
    rw [← divided.whole]
    field_simp
  have low : 0 ≤ left / unit := by positivity
  have high : left / unit < 1 := (div_lt_one positive).2 divided.less
  rw [quotient, eq_comm, Nat.floor_eq_iff (by positivity)]
  constructor <;> linarith

theorem left_eq (divided : Divided unit amount fits left) : left = amount - fits * unit := by
  have := divided.whole
  linarith

theorem unique {left' : ℚ} {fits' : Nat} (first : Divided unit amount fits left)
    (second : Divided unit amount fits' left') : fits = fits' ∧ left = left' := by
  have same : fits = fits' := by rw [first.fits_eq, second.fits_eq]
  refine ⟨same, ?_⟩
  rw [first.left_eq, second.left_eq, same]

end Divided

/-- A clock takes units from an amount until none is left, and is then through. -/
theorem drain_divides {unit : ℚ} (positive : 0 < unit) {allowance : Nat} {amount : ℚ}
    (nonneg : 0 ≤ amount) (enough : ⌊amount / unit⌋₊ ≤ allowance) (count : Nat) :
    ∃ fits left, Clock.drain unit allowance count amount = some (count + fits, left) ∧
      Divided unit amount fits left := by
  induction allowance generalizing amount count with
  | zero =>
    have less : amount < unit := by
      rwa [Nat.le_zero, Nat.floor_eq_zero, div_lt_one positive] at enough
    refine ⟨0, amount, ?_, .none nonneg less⟩
    simp [Clock.drain, ClockAmount.reaches, less]
  | succ allowance ih =>
    by_cases reaches : unit ≤ amount
    · have fewer : ⌊(amount - unit) / unit⌋₊ ≤ allowance := by
        rw [sub_div, div_self positive.ne', Nat.floor_sub_one]
        omega
      obtain ⟨fits, left, drained, divided⟩ := ih (sub_nonneg.2 reaches) fewer (count + 1)
      refine ⟨fits + 1, left, ?_, divided.succ⟩
      rw [Nat.add_comm fits, ← Nat.add_assoc, ← drained]
      simp [Clock.drain, ClockAmount.reaches, ClockAmount.subtract, reaches]
    · refine ⟨0, amount, ?_, .none nonneg (not_le.1 reaches)⟩
      simp [Clock.drain, ClockAmount.reaches, reaches]

namespace ExactClock

/-! ### One call -/

def both (first second : Ticks) : Ticks :=
  ⟨first.steps + second.steps, first.timerEvents + second.timerEvents⟩

structure Settled (c : ExactClock) (given : Ticks) (work time : ℚ) : Prop where
  steps : Divided 1 work given.steps c.stepRemainder
  timer : Divided (1000 / 60) time given.timerEvents c.timerRemainder

theorem Settled.advance {c : ExactClock} {given : Ticks} {work time elapsed : ℚ}
    (settled : Settled c given work time) (positive : 0 < c.frequency) (nonneg : 0 ≤ elapsed) :
    ∃ ticks d, c.advance elapsed = .ok (ticks, d) ∧ d.frequency = c.frequency ∧
      Settled d (both given ticks) (work + elapsed * c.frequency / 1000) (time + elapsed) := by
  have due : 0 ≤ c.stepRemainder + elapsed * c.frequency / 1000 := by
    have := settled.steps.nonneg
    positivity
  have lapsed : 0 ≤ c.timerRemainder + elapsed := by
    have := settled.timer.nonneg
    positivity
  have period : (0 : ℚ) < 1000 / 60 := by norm_num
  obtain ⟨steps, stepRemainder, stepped, stepsDivided⟩ := drain_divides one_pos due le_rfl 0
  obtain ⟨events, timerRemainder, timed, timerDivided⟩ :=
    drain_divides period lapsed le_rfl 0
  refine ⟨⟨steps, events⟩, { c with stepRemainder, timerRemainder }, ?_, rfl,
    settled.steps.trans stepsDivided, settled.timer.trans timerDivided⟩
  rw [Nat.zero_add] at stepped timed
  have forward : ¬ elapsed < 0 := not_lt.2 nonneg
  simp only [Clock.advance, ClockInput.isNegative, ClockInput.steps?, ClockInput.milliseconds?,
    ClockAmount.add, ClockAmount.oneStep, ClockAmount.timerPeriod, ClockAmount.allowance, forward,
    decide_false, stepped, timed]
  rfl

/-! ### Runs of calls -/

inductive Request where
  | advance (elapsed : ℚ)
  | setFrequency (frequency : ℚ)

def Request.Valid : Request → Prop
  | advance elapsed => 0 ≤ elapsed
  | setFrequency frequency => 0 < frequency

def perform (c : ExactClock) : Request → Except (ClockError ℚ) (Ticks × ExactClock)
  | .advance elapsed => c.advance elapsed
  | .setFrequency frequency => (c.setFrequency frequency).map fun d => (⟨0, 0⟩, d)

/-- Perform requests one after the other; the result holds all steps and timer events together. -/
def performAll : List Request → ExactClock → Except (ClockError ℚ) (Ticks × ExactClock)
  | [], c => .ok (⟨0, 0⟩, c)
  | request :: requests, c => do
    let (first, c) ← c.perform request
    let (rest, c) ← performAll requests c
    return (both first rest, c)

structure Slice where
  elapsed : ℚ
  frequency : ℚ

def slices (frequency : ℚ) : List Request → List Slice
  | [] => []
  | .advance elapsed :: requests => ⟨elapsed, frequency⟩ :: slices frequency requests
  | .setFrequency frequency :: requests => slices frequency requests

def frequencyAfter (frequency : ℚ) : List Request → ℚ
  | [] => frequency
  | .advance _ :: requests => frequencyAfter frequency requests
  | .setFrequency frequency :: requests => frequencyAfter frequency requests

/-- The steps due in some slices, also in parts. -/
def work (slices : List Slice) : ℚ :=
  (slices.map fun s => s.elapsed * s.frequency / 1000).sum

def time (slices : List Slice) : ℚ :=
  (slices.map (·.elapsed)).sum

theorem both_assoc (first second third : Ticks) :
    both (both first second) third = both first (both second third) := by
  simp only [both, Nat.add_assoc]

theorem Settled.performAll {c : ExactClock} {given : Ticks} {workDue timeDue : ℚ}
    (settled : Settled c given workDue timeDue) (positive : 0 < c.frequency)
    (requests : List Request) (valid : ∀ r ∈ requests, r.Valid) :
    ∃ ticks d, performAll requests c = .ok (ticks, d) ∧
      d.frequency = frequencyAfter c.frequency requests ∧
      Settled d (both given ticks) (workDue + work (slices c.frequency requests))
        (timeDue + time (slices c.frequency requests)) := by
  induction requests generalizing c given workDue timeDue with
  | nil =>
    refine ⟨⟨0, 0⟩, c, rfl, rfl, ?_⟩
    simpa [both, work, time, slices] using settled
  | cons request requests ih =>
    have here := valid request List.mem_cons_self
    have rest : ∀ r ∈ requests, r.Valid := fun r member => valid r (.tail _ member)
    cases request with
    | advance elapsed =>
      obtain ⟨first, d, advanced, same, settled⟩ := settled.advance positive here
      obtain ⟨ticks, e, performed, frequency, settled⟩ := ih settled (same ▸ positive) rest
      refine ⟨both first ticks, e, ?_, by rw [frequency, same]; rfl, ?_⟩
      · simp only [ExactClock.performAll, perform, advanced, performed, bind, Except.bind, pure,
          Except.pure]
      · rw [both_assoc, same] at settled
        simpa [work, time, slices, add_assoc] using settled
    | setFrequency frequency =>
      have accepted : c.setFrequency frequency = .ok { c with frequency } := by
        have positive : ¬ frequency ≤ 0 := not_le.2 here
        simp [Clock.setFrequency, ClockInput.isNonpositive, positive]
      -- The remainder is kept in steps, so another frequency leaves it as it is.
      have changed : Settled { c with frequency } given workDue timeDue :=
        ⟨settled.steps, settled.timer⟩
      obtain ⟨ticks, d, performed, frequency, settled⟩ := ih changed here rest
      refine ⟨ticks, d, ?_, frequency, settled⟩
      simp [ExactClock.performAll, perform, accepted, performed, bind, Except.bind, Except.map, both,
        pure, Except.pure]

theorem settled_reset (c : ExactClock) : Settled c.reset ⟨0, 0⟩ 0 0 where
  steps := .none le_rfl one_pos
  timer := .none le_rfl (by norm_num)

/-- A run from a reset is settled with what it gave out. -/
theorem performAll_reset (c : ExactClock) (positive : 0 < c.frequency) (requests : List Request)
    (valid : ∀ r ∈ requests, r.Valid) :
    ∃ ticks d, performAll requests c.reset = .ok (ticks, d) ∧
      d.frequency = frequencyAfter c.frequency requests ∧
      Settled d ticks (work (slices c.frequency requests)) (time (slices c.frequency requests)) := by
  obtain ⟨ticks, d, performed, frequency, settled⟩ :=
    (settled_reset c).performAll positive requests valid
  refine ⟨ticks, d, performed, frequency, ?_⟩
  simpa [both, Clock.reset] using settled

/-- What is due at the end decides what was given out and what is kept. -/
theorem Settled.unique {c d : ExactClock} {given other : Ticks} {workDue timeDue : ℚ}
    (first : Settled c given workDue timeDue) (second : Settled d other workDue timeDue)
    (frequency : c.frequency = d.frequency) : (given, c) = (other, d) := by
  obtain ⟨steps, stepRemainder⟩ := first.steps.unique second.steps
  obtain ⟨events, timerRemainder⟩ := first.timer.unique second.timer
  cases given
  cases other
  cases c
  cases d
  simp_all

/-! ### Slicing at one frequency -/

theorem work_advances (frequency : ℚ) (elapsed : List ℚ) :
    work (slices frequency (elapsed.map .advance)) = elapsed.sum * frequency / 1000 := by
  induction elapsed with
  | nil => simp [work, slices]
  | cons e elapsed ih =>
    simp only [work, slices, List.map_cons, List.sum_cons] at ih ⊢
    rw [ih]
    ring

theorem time_advances (frequency : ℚ) (elapsed : List ℚ) :
    time (slices frequency (elapsed.map .advance)) = elapsed.sum := by
  induction elapsed with
  | nil => rfl
  | cons e elapsed ih =>
    simp only [time, slices, List.map_cons, List.sum_cons] at ih ⊢
    rw [ih]

theorem frequencyAfter_advances (frequency : ℚ) (elapsed : List ℚ) :
    frequencyAfter frequency (elapsed.map .advance) = frequency := by
  induction elapsed with
  | nil => rfl
  | cons e elapsed ih => exact ih

/-- From a reset on a clock gives out the whole steps and timer events of all the time that was due,
and keeps exactly the rest. How a time is sliced at one frequency makes no difference. -/
theorem conserves_time (c : ExactClock) (positive : 0 < c.frequency) :
    (∀ requests : List Request, (∀ r ∈ requests, r.Valid) →
      ∃ ticks d, performAll requests c.reset = .ok (ticks, d) ∧
        ticks.steps = ⌊work (slices c.frequency requests)⌋₊ ∧
        ticks.timerEvents = ⌊time (slices c.frequency requests) * 60 / 1000⌋₊ ∧
        d.stepRemainder = work (slices c.frequency requests) - ticks.steps ∧
        0 ≤ d.stepRemainder ∧ d.stepRemainder < 1 ∧
        d.timerRemainder = time (slices c.frequency requests) - ticks.timerEvents * (1000 / 60) ∧
        0 ≤ d.timerRemainder ∧ d.timerRemainder < 1000 / 60) ∧
      ∀ first second : List ℚ, (∀ e ∈ first, 0 ≤ e) → (∀ e ∈ second, 0 ≤ e) →
        first.sum = second.sum → ∃ ticks d, performAll (first.map .advance) c.reset = .ok (ticks, d) ∧
          performAll (second.map .advance) c.reset = .ok (ticks, d) := by
  refine ⟨fun requests valid => ?_, fun first second forward forward' same => ?_⟩
  · obtain ⟨ticks, d, performed, -, settled⟩ := performAll_reset c positive requests valid
    have steps := settled.steps.fits_eq
    have left := settled.steps.left_eq
    rw [div_one] at steps
    rw [mul_one] at left
    have events := settled.timer.fits_eq
    rw [div_div_eq_mul_div] at events
    exact ⟨ticks, d, performed, steps, events, left, settled.steps.nonneg, settled.steps.less,
      settled.timer.left_eq, settled.timer.nonneg, settled.timer.less⟩
  · have valid {elapsed : List ℚ} (forward : ∀ e ∈ elapsed, 0 ≤ e) :
        ∀ r ∈ elapsed.map Request.advance, r.Valid := by
      intro r member
      obtain ⟨e, given, rfl⟩ := List.mem_map.1 member
      exact forward e given
    obtain ⟨ticks, d, performed, frequency, settled⟩ := performAll_reset c positive _ (valid forward)
    obtain ⟨ticks', d', performed', frequency', settled'⟩ :=
      performAll_reset c positive _ (valid forward')
    rw [work_advances, time_advances] at settled settled'
    rw [frequencyAfter_advances] at frequency frequency'
    rw [← same] at settled'
    -- The sums alone decide what is due.
    have alike := settled.unique settled' (by rw [frequency, frequency'])
    exact ⟨ticks, d, performed, by rw [performed', alike]⟩

def halfway : ExactClock :=
  ⟨600, 1 / 2, 3⟩

def threeSlices : List Request :=
  [.advance (25 / 3), .setFrequency 1000, .advance (1 / 2), .advance 100]

theorem conserves_time_threeSlices :
    0 < halfway.frequency ∧ (∀ r ∈ threeSlices, r.Valid) ∧
      (∃ d, performAll threeSlices halfway.reset = .ok (⟨105, 6⟩, d) ∧
        d.stepRemainder = 1 / 2 ∧ d.timerRemainder = 53 / 6) ∧
      ∃ ticks d, performAll ([50, 50].map .advance) halfway.reset = .ok (ticks, d) ∧
        performAll ([100 / 3, 200 / 3].map .advance) halfway.reset = .ok (ticks, d) := by
  have positive : 0 < halfway.frequency := by norm_num [halfway]
  have valid : ∀ r ∈ threeSlices, r.Valid := by norm_num [threeSlices, Request.Valid]
  have workDue : work (slices halfway.frequency threeSlices) = 211 / 2 := by
    norm_num [work, slices, threeSlices, halfway]
  have timeDue : time (slices halfway.frequency threeSlices) = 653 / 6 := by
    norm_num [time, slices, threeSlices]
  obtain ⟨requests, slicings⟩ := conserves_time halfway positive
  obtain ⟨ticks, d, performed, steps, events, left, -, -, kept, -, -⟩ := requests threeSlices valid
  rw [workDue] at steps left
  rw [timeDue] at events kept
  have steps : ticks.steps = 105 := by
    rw [steps, Nat.floor_eq_iff (by norm_num)]
    norm_num
  have events : ticks.timerEvents = 6 := by
    rw [events, Nat.floor_eq_iff (by norm_num)]
    norm_num
  refine ⟨positive, valid, ⟨d, ?_, ?_, ?_⟩, ?_⟩
  · rw [performed, ← steps, ← events]
  · rw [left, steps]
    norm_num
  · rw [kept, events]
    norm_num
  · exact slicings _ _ (by norm_num) (by norm_num) (by norm_num)

end ExactClock

end Chip8
