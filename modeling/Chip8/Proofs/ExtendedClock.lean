import Chip8.Proofs.ExactClock
import Mathlib.Data.Sign.Basic

/-! The clock over rational numbers with infinities and not-a-number.

The clock refuses times below zero and frequencies that are zero or below. Of the extended numbers
that leaves an infinity and not-a-number, and neither is good for it: an infinity stays what it is
when a unit is taken away, so that the taking never ends, and not-a-number reaches no unit and is
kept for good. As long as all that a clock is given is finite, it is an exact clock.
-/

set_option autoImplicit false

namespace Chip8

/-! ### Taking units without an allowance -/

namespace Clock

section Drains

variable {ρ : Type} [ClockAmount ρ]

/-- A unit is taken from an amount as long as it fits, so often, and this is left. -/
inductive Drains (unit : ρ) : (amount : ρ) → (fits : Nat) → (left : ρ) → Prop where
  | done {amount : ρ} (short : ClockAmount.reaches amount unit = false) :
      Drains unit amount 0 amount
  | take {amount left : ρ} {fits : Nat} (fitting : ClockAmount.reaches amount unit = true)
      (rest : Drains unit (ClockAmount.subtract amount unit) fits left) :
      Drains unit amount (fits + 1) left

/-- An allowance only ever cuts the taking short. -/
theorem drains_of_drain {unit amount left : ρ} {allowance count total : Nat}
    (drained : drain unit allowance count amount = some (total, left)) :
    ∃ fits, total = count + fits ∧ Drains unit amount fits left := by
  induction allowance generalizing count amount with
  | zero =>
    unfold drain at drained
    split at drained
    · cases drained
    · next short =>
      cases drained
      exact ⟨0, rfl, .done (Bool.eq_false_of_not_eq_true short)⟩
  | succ allowance ih =>
    unfold drain at drained
    split at drained
    · next fitting =>
      obtain ⟨fits, rfl, rest⟩ := ih drained
      exact ⟨fits + 1, by omega, .take fitting rest⟩
    · next short =>
      cases drained
      exact ⟨0, rfl, .done (Bool.eq_false_of_not_eq_true short)⟩

end Drains

section Advance

variable {ι ρ : Type} [ClockAmount ρ] [ClockInput ι ρ]

open ClockAmount ClockInput

/-- What an accepted time does to a clock. -/
structure Advances (c : Clock ι ρ) (elapsed : ι) (ticks : Ticks) (d : Clock ι ρ) (due time : ρ) :
    Prop where
  forward : isNegative elapsed = false
  work : steps? elapsed c.frequency = some due
  lapse : milliseconds? elapsed = some time
  steps : drain oneStep (allowance (add c.stepRemainder due) oneStep) 0 (add c.stepRemainder due) =
    some (ticks.steps, d.stepRemainder)
  timer : drain timerPeriod (allowance (add c.timerRemainder time) timerPeriod) 0
    (add c.timerRemainder time) = some (ticks.timerEvents, d.timerRemainder)
  frequency : d.frequency = c.frequency

theorem Advances.advance_eq {c d : Clock ι ρ} {elapsed : ι} {ticks : Ticks} {due time : ρ}
    (advances : Advances c elapsed ticks d due time) : c.advance elapsed = .ok (ticks, d) := by
  obtain ⟨steps, timerEvents⟩ := ticks
  obtain ⟨frequency, stepRemainder, timerRemainder⟩ := d
  obtain rfl : frequency = c.frequency := advances.frequency
  simp only [advance, advances.forward, advances.work, advances.lapse, advances.steps,
    advances.timer]
  rfl

theorem advances_of_advance {c d : Clock ι ρ} {elapsed : ι} {ticks : Ticks}
    (advanced : c.advance elapsed = .ok (ticks, d)) :
    ∃ due time, Advances c elapsed ticks d due time := by
  unfold advance at advanced
  split at advanced
  · cases advanced
  · next forward =>
    split at advanced
    · next due time dueEq timeEq =>
      dsimp only at advanced
      split at advanced
      · next steps timer =>
        cases advanced
        exact ⟨due, time, Bool.eq_false_of_not_eq_true forward, dueEq, timeEq, steps, timer, rfl⟩
      · cases advanced
    · cases advanced

end Advance

end Clock

/-! ### Extended numbers -/

/-- Rational numbers, and what binary64 has beside numbers. -/
inductive ExtendedRational where
  | finite (q : ℚ)
  | infinity
  | negativeInfinity
  | notANumber
  deriving DecidableEq

namespace ExtendedRational

def IsFinite (x : ExtendedRational) : Prop :=
  ∃ q, x = finite q

def PartOf (unit : ℚ) (x : ExtendedRational) : Prop :=
  ∃ q, x = finite q ∧ 0 ≤ q ∧ q < unit

def add : ExtendedRational → ExtendedRational → ExtendedRational
  | finite p, finite q => finite (p + q)
  | finite _, infinity | infinity, finite _ | infinity, infinity => infinity
  | finite _, negativeInfinity | negativeInfinity, finite _ | negativeInfinity, negativeInfinity =>
    negativeInfinity
  | _, _ => notANumber

def negate : ExtendedRational → ExtendedRational
  | finite q => finite (-q)
  | infinity => negativeInfinity
  | negativeInfinity => infinity
  | notANumber => notANumber

def subtract (x y : ExtendedRational) : ExtendedRational :=
  x.add y.negate

def sign? : ExtendedRational → Option SignType
  | finite q => some (SignType.sign q)
  | infinity => some 1
  | negativeInfinity => some (-1)
  | notANumber => none

def infinite : SignType → ExtendedRational
  | .pos => infinity
  | .neg => negativeInfinity
  | .zero => notANumber

def multiply : ExtendedRational → ExtendedRational → ExtendedRational
  | finite p, finite q => finite (p * q)
  | x, y =>
    match x.sign?, y.sign? with
    | some s, some t => infinite (s * t)
    | _, _ => notANumber

/-- Whether a number is below another. Not-a-number is below nothing, and nothing is below it. -/
def below : ExtendedRational → ExtendedRational → Bool
  | finite p, finite q => p < q
  | negativeInfinity, finite _ | negativeInfinity, infinity | finite _, infinity => true
  | _, _ => false

def atMost : ExtendedRational → ExtendedRational → Bool
  | finite p, finite q => p ≤ q
  | infinity, infinity | negativeInfinity, negativeInfinity => true
  | x, y => x.below y

section Finite

variable {x y : ExtendedRational}

theorem isFinite_finite (q : ℚ) : (finite q).IsFinite :=
  ⟨q, rfl⟩

theorem not_isFinite_infinite (s : SignType) : ¬ (infinite s).IsFinite := by
  rintro ⟨q, same⟩
  cases s <;> cases same

theorem PartOf.isFinite {unit : ℚ} (part : x.PartOf unit) : x.IsFinite := by
  obtain ⟨q, same, -, -⟩ := part
  exact ⟨q, same⟩

theorem isFinite_of_add (sum : (x.add y).IsFinite) : x.IsFinite ∧ y.IsFinite := by
  obtain ⟨q, same⟩ := sum
  unfold add at same
  split at same
  · exact ⟨isFinite_finite _, isFinite_finite _⟩
  all_goals cases same

theorem isFinite_of_subtract (difference : (x.subtract y).IsFinite) : x.IsFinite :=
  (isFinite_of_add difference).1

theorem isFinite_of_multiply (product : (x.multiply y).IsFinite) : x.IsFinite ∧ y.IsFinite := by
  unfold multiply at product
  split at product
  · exact ⟨isFinite_finite _, isFinite_finite _⟩
  · split at product
    · exact absurd product (not_isFinite_infinite _)
    · obtain ⟨q, same⟩ := product
      cases same

theorem multiply_infinity {q : ℚ} (positive : 0 < q) : (finite q).multiply infinity = infinity := by
  simp only [multiply, sign?, sign_pos positive]
  rfl

theorem infinity_multiply {q : ℚ} (positive : 0 < q) : infinity.multiply (finite q) = infinity := by
  simp only [multiply, sign?, sign_pos positive]
  rfl

end Finite

end ExtendedRational

open ExtendedRational
open Clock (Drains)

instance : ClockAmount ExtendedRational where
  zero := finite 0
  add := add
  subtract := subtract
  reaches amount unit := unit.atMost amount
  oneStep := finite 1
  timerPeriod := finite (1000 / 60)
  allowance
    | finite amount, finite unit => ⌊amount / unit⌋₊
    | _, _ => 0

instance : ClockInput ExtendedRational ExtendedRational where
  isNegative elapsed := elapsed.below (finite 0)
  isNonpositive frequency := frequency.atMost (finite 0)
  milliseconds? := some
  steps? elapsed frequency := some ((elapsed.multiply frequency).multiply (finite (1 / 1000)))

abbrev ExtendedClock := Clock ExtendedRational ExtendedRational

/-! ### What is taken from extended numbers -/

theorem drain_finite (unit amount : ℚ) (allowance count : Nat) :
    Clock.drain (finite unit) allowance count (finite amount) =
      (Clock.drain unit allowance count amount).map fun (fits, left) => (fits, finite left) := by
  induction allowance generalizing count amount with
  | zero =>
    by_cases fitting : unit ≤ amount
    · simp [Clock.drain, ClockAmount.reaches, atMost, fitting]
    · simp [Clock.drain, ClockAmount.reaches, atMost, fitting]
  | succ allowance ih =>
    have next : (finite amount).subtract (finite unit) = finite (amount - unit) := by
      simp only [subtract, negate, ExtendedRational.add, sub_eq_add_neg]
    by_cases fitting : unit ≤ amount
    · simp only [Clock.drain, ClockAmount.reaches, atMost, fitting, decide_true, if_true,
        ClockAmount.subtract, next, ih]
    · simp [Clock.drain, ClockAmount.reaches, atMost, fitting]

/-- Nothing that is taken from an infinity makes it less. -/
theorem not_drains_infinity (unit : ℚ) (fits : Nat) (left : ExtendedRational) :
    ¬ Drains (finite unit) infinity fits left := by
  intro drains
  generalize start : infinity = amount at drains
  induction drains with
  | done short =>
    subst start
    cases short
  | take fitting rest ih =>
    subst start
    exact ih rfl

theorem isFinite_of_drains {unit amount left : ExtendedRational} {fits : Nat}
    (drains : Drains unit amount fits left) (finite : left.IsFinite) : amount.IsFinite := by
  induction drains with
  | done short => exact finite
  | take fitting rest ih => exact isFinite_of_subtract (ih finite)

theorem partOf_of_drains {unit : ℚ} {amount left : ExtendedRational} {fits : Nat}
    (drains : Drains (finite unit) amount fits left) (nonneg : ∀ q, amount = finite q → 0 ≤ q)
    {q : ℚ} (same : left = finite q) : 0 ≤ q ∧ q < unit := by
  induction drains with
  | done short =>
    refine ⟨nonneg q same, ?_⟩
    subst same
    exact not_le.1 (of_decide_eq_false short)
  | @take amount left fits fitting rest ih =>
    refine ih (fun p difference => ?_) same
    cases amount with
    | finite amount =>
      obtain rfl : amount + -unit = p := ExtendedRational.finite.inj difference
      have fitting : unit ≤ amount := of_decide_eq_true fitting
      linarith
    | infinity | negativeInfinity | notANumber => cases difference

namespace ExtendedClock

variable {c d : ExtendedClock} {elapsed : ExtendedRational} {ticks : Ticks}

/-! ### Clocks that were given something -/

/-- A clock after calls that it accepted, with all frequencies and times of one kind. -/
inductive Reached (given : ExtendedRational → Prop) : ExtendedClock → Prop where
  | start {frequency : ExtendedRational} {c : ExtendedClock} (kind : given frequency)
      (started : Clock.start frequency = .ok c) : Reached given c
  | setFrequency {frequency : ExtendedRational} {c d : ExtendedClock} (earlier : Reached given c)
      (kind : given frequency) (set : c.setFrequency frequency = .ok d) : Reached given d
  | reset {c : ExtendedClock} (earlier : Reached given c) : Reached given c.reset
  | advance {elapsed : ExtendedRational} {ticks : Ticks} {c d : ExtendedClock}
      (earlier : Reached given c) (kind : given elapsed)
      (advanced : c.advance elapsed = .ok (ticks, d)) : Reached given d

theorem Reached.mono {given other : ExtendedRational → Prop} (reached : Reached given c)
    (more : ∀ x, given x → other x) : Reached other c := by
  induction reached with
  | start kind started => exact .start (more _ kind) started
  | setFrequency earlier kind set ih => exact .setFrequency ih (more _ kind) set
  | reset earlier ih => exact .reset ih
  | advance earlier kind advanced ih => exact .advance ih (more _ kind) advanced

def stepsDue (c : ExtendedClock) (elapsed : ExtendedRational) : ExtendedRational :=
  c.stepRemainder.add ((elapsed.multiply c.frequency).multiply (finite (1 / 1000)))

def timeDue (c : ExtendedClock) (elapsed : ExtendedRational) : ExtendedRational :=
  c.timerRemainder.add elapsed

structure Settles (c : ExtendedClock) (elapsed : ExtendedRational) (ticks : Ticks)
    (d : ExtendedClock) : Prop where
  steps : Drains (finite 1) (c.stepsDue elapsed) ticks.steps d.stepRemainder
  timer : Drains (finite (1000 / 60)) (c.timeDue elapsed) ticks.timerEvents d.timerRemainder
  stepRemainder : d.stepRemainder.PartOf 1
  timerRemainder : d.timerRemainder.PartOf (1000 / 60)

/-- What an advance does that is through with its loops. -/
theorem drains_of_advance (advanced : c.advance elapsed = .ok (ticks, d)) :
    d.frequency = c.frequency ∧
      Drains (finite 1) (c.stepsDue elapsed) ticks.steps d.stepRemainder ∧
      Drains (finite (1000 / 60)) (c.timeDue elapsed) ticks.timerEvents d.timerRemainder := by
  obtain ⟨due, time, advances⟩ := Clock.advances_of_advance advanced
  obtain rfl := Option.some.inj advances.work
  obtain rfl := Option.some.inj advances.lapse
  obtain ⟨fits, steps, drained⟩ := Clock.drains_of_drain advances.steps
  obtain ⟨fits', events, drained'⟩ := Clock.drains_of_drain advances.timer
  rw [Nat.zero_add] at steps events
  exact ⟨advances.frequency, steps ▸ drained, events ▸ drained'⟩

/-! ### Finite clocks are exact clocks -/

def ofExact (c : ExactClock) : ExtendedClock :=
  ⟨finite c.frequency, finite c.stepRemainder, finite c.timerRemainder⟩

structure IsFinite (c : ExtendedClock) : Prop where
  frequency : c.frequency.IsFinite
  stepRemainder : c.stepRemainder.IsFinite
  timerRemainder : c.timerRemainder.IsFinite

theorem isFinite_ofExact (c : ExactClock) : (ofExact c).IsFinite :=
  ⟨isFinite_finite _, isFinite_finite _, isFinite_finite _⟩

theorem IsFinite.exists_exact (isFinite : c.IsFinite) : ∃ exact, c = ofExact exact := by
  obtain ⟨frequency, stepRemainder, timerRemainder⟩ := c
  obtain ⟨⟨f, rfl⟩, ⟨s, rfl⟩, ⟨t, rfl⟩⟩ := isFinite
  exact ⟨⟨f, s, t⟩, rfl⟩

theorem advance_ofExact {x y : ExactClock} {time : ℚ} (advanced : x.advance time = .ok (ticks, y)) :
    (ofExact x).advance (finite time) = .ok (ticks, ofExact y) := by
  obtain ⟨due, same, advances⟩ := Clock.advances_of_advance advanced
  obtain rfl := Option.some.inj advances.work
  obtain rfl := Option.some.inj advances.lapse
  have steps : ((finite time).multiply (ofExact x).frequency).multiply (finite (1 / 1000)) =
      finite (time * x.frequency / 1000) := by
    simp only [ofExact, multiply, mul_one_div]
  refine Clock.Advances.advance_eq ⟨advances.forward, congrArg some steps, rfl, ?_, ?_,
    congrArg finite advances.frequency⟩
  · exact (drain_finite 1 _ _ 0).trans (congrArg (Option.map _) advances.steps)
  · exact (drain_finite (1000 / 60) _ _ 0).trans (congrArg (Option.map _) advances.timer)

/-- A clock that gives out and keeps what it should as far as it is finite. -/
structure Sound (c : ExtendedClock) : Prop where
  positive : ∀ q, c.frequency = finite q → 0 < q
  stepRemainder : ∀ q, c.stepRemainder = finite q → 0 ≤ q ∧ q < 1
  timerRemainder : ∀ q, c.timerRemainder = finite q → 0 ≤ q ∧ q < 1000 / 60

theorem nonneg_of_forward (forward : ClockInput.isNegative elapsed = false) {q : ℚ}
    (same : elapsed = finite q) : 0 ≤ q := by
  subst same
  exact not_lt.1 (of_decide_eq_false forward)

theorem positive_of_accepted {frequency : ExtendedRational}
    (accepted : ¬ ClockInput.isNonpositive frequency = true) {q : ℚ} (same : frequency = finite q) :
    0 < q := by
  subst same
  exact not_le.1 fun nonpositive => accepted (decide_eq_true nonpositive)

theorem sound_zero {unit : ℚ} (positive : 0 < unit) (q : ℚ) (same : finite 0 = finite q) :
    0 ≤ q ∧ q < unit := by
  cases same
  exact ⟨le_rfl, positive⟩

/-- Where the steps due are finite, all that they come from is. -/
theorem isFinite_of_stepsDue (due : (c.stepsDue elapsed).IsFinite) :
    c.stepRemainder.IsFinite ∧ elapsed.IsFinite ∧ c.frequency.IsFinite := by
  obtain ⟨kept, product⟩ := isFinite_of_add due
  obtain ⟨product, -⟩ := isFinite_of_multiply product
  exact ⟨kept, isFinite_of_multiply product⟩

theorem Sound.stepsDue (sound : c.Sound) (forward : ClockInput.isNegative elapsed = false) (q : ℚ)
    (same : c.stepsDue elapsed = finite q) : 0 ≤ q := by
  obtain ⟨⟨r, kept⟩, ⟨time, rfl⟩, ⟨frequency, rate⟩⟩ := isFinite_of_stepsDue ⟨q, same⟩
  have nonneg := nonneg_of_forward forward rfl
  have positive := sound.positive frequency rate
  have remainder := (sound.stepRemainder r kept).1
  rw [ExtendedClock.stepsDue, kept, rate] at same
  obtain rfl : r + time * frequency * (1 / 1000) = q := ExtendedRational.finite.inj same
  positivity

theorem Sound.timeDue (sound : c.Sound) (forward : ClockInput.isNegative elapsed = false) (q : ℚ)
    (same : c.timeDue elapsed = finite q) : 0 ≤ q := by
  obtain ⟨⟨r, kept⟩, ⟨time, rfl⟩⟩ := isFinite_of_add ⟨q, same⟩
  have nonneg := nonneg_of_forward forward rfl
  have remainder := (sound.timerRemainder r kept).1
  rw [ExtendedClock.timeDue, kept] at same
  obtain rfl : r + time = q := ExtendedRational.finite.inj same
  positivity

theorem Reached.sound {given : ExtendedRational → Prop} (reached : Reached given c) : c.Sound := by
  induction reached with
  | start kind started =>
    unfold Clock.start at started
    split at started
    · cases started
    · next accepted =>
      cases started
      exact ⟨fun q => positive_of_accepted accepted, sound_zero one_pos, sound_zero (by norm_num)⟩
  | setFrequency earlier kind set ih =>
    unfold Clock.setFrequency at set
    split at set
    · cases set
    · next accepted =>
      cases set
      exact ⟨fun q => positive_of_accepted accepted, ih.stepRemainder, ih.timerRemainder⟩
  | reset earlier ih => exact ⟨ih.positive, sound_zero one_pos, sound_zero (by norm_num)⟩
  | @advance elapsed ticks c d earlier kind advanced ih =>
    obtain ⟨due, time, advances⟩ := Clock.advances_of_advance advanced
    obtain ⟨frequency, steps, timer⟩ := drains_of_advance advanced
    -- What is left is less than a unit, if it is a number at all.
    refine ⟨fun q => ?_, fun q => ?_, fun q => ?_⟩
    · rw [frequency]
      exact ih.positive q
    · exact partOf_of_drains steps (ih.stepsDue advances.forward)
    · exact partOf_of_drains timer (ih.timeDue advances.forward)

/-- A clock over finite numbers is through with every finite time. -/
theorem Sound.through (sound : c.Sound) (isFinite : c.IsFinite) (time : elapsed.IsFinite)
    (forward : ClockInput.isNegative elapsed = false) :
    ∃ (ticks : Ticks) (d : ExtendedClock), c.advance elapsed = .ok (ticks, d) ∧ d.IsFinite ∧
      Settles c elapsed ticks d := by
  obtain ⟨x, rfl⟩ := isFinite.exists_exact
  obtain ⟨e, rfl⟩ := time
  obtain ⟨low, high⟩ := sound.stepRemainder _ rfl
  obtain ⟨low', high'⟩ := sound.timerRemainder _ rfl
  have settled : ExactClock.Settled x ⟨0, 0⟩ x.stepRemainder x.timerRemainder :=
    ⟨.none low high, .none low' high'⟩
  obtain ⟨ticks, y, advanced, -, kept⟩ :=
    settled.advance (sound.positive _ rfl) (nonneg_of_forward forward rfl)
  have advanced := advance_ofExact advanced
  obtain ⟨-, steps, timer⟩ := drains_of_advance advanced
  exact ⟨ticks, ofExact y, advanced, isFinite_ofExact y, steps, timer,
    ⟨_, rfl, kept.steps.nonneg, kept.steps.less⟩, ⟨_, rfl, kept.timer.nonneg, kept.timer.less⟩⟩

/-- A clock that was given only finite numbers holds only finite numbers. -/
theorem Reached.isFinite (reached : Reached ExtendedRational.IsFinite c) : c.IsFinite := by
  induction reached with
  | start kind started =>
    unfold Clock.start at started
    split at started
    · cases started
    · cases started
      exact ⟨kind, isFinite_finite 0, isFinite_finite 0⟩
  | setFrequency earlier kind set ih =>
    unfold Clock.setFrequency at set
    split at set
    · cases set
    · cases set
      exact ⟨kind, ih.stepRemainder, ih.timerRemainder⟩
  | reset earlier ih => exact ⟨ih.frequency, isFinite_finite 0, isFinite_finite 0⟩
  | advance earlier kind advanced ih =>
    obtain ⟨due, time, advances⟩ := Clock.advances_of_advance advanced
    obtain ⟨ticks, d, again, isFinite, -⟩ :=
      earlier.sound.through ih kind advances.forward
    obtain ⟨-, rfl⟩ := Prod.mk.inj (Except.ok.inj (again.symm.trans advanced))
    exact isFinite

theorem Settles.isFinite (settles : Settles c elapsed ticks d) : c.IsFinite ∧ elapsed.IsFinite := by
  have due := isFinite_of_drains settles.steps settles.stepRemainder.isFinite
  obtain ⟨kept, time, frequency⟩ := isFinite_of_stepsDue due
  have lapsed := isFinite_of_drains settles.timer settles.timerRemainder.isFinite
  exact ⟨⟨frequency, kept, (isFinite_of_add lapsed).1⟩, time⟩

/-- A clock that is given only finite numbers is through with every time that it accepts, and then
keeps less than a step and less than a timer period. Whatever else it was given, it gets there
exactly if what it holds and the time are finite. -/
theorem advance_ends {given : ExtendedRational → Prop} (reached : Reached given c)
    (forward : ClockInput.isNegative elapsed = false) :
    ((∀ x, given x → x.IsFinite) → elapsed.IsFinite →
      ∃ ticks d, c.advance elapsed = .ok (ticks, d) ∧ Settles c elapsed ticks d) ∧
    ((∃ ticks d, Settles c elapsed ticks d) ↔ c.IsFinite ∧ elapsed.IsFinite) := by
  refine ⟨fun finite time => ?_, ?_, ?_⟩
  · obtain ⟨ticks, d, advanced, -, settles⟩ :=
      reached.sound.through (reached.mono finite).isFinite time forward
    exact ⟨ticks, d, advanced, settles⟩
  · rintro ⟨ticks, d, settles⟩
    exact settles.isFinite
  · rintro ⟨isFinite, time⟩
    obtain ⟨ticks, d, -, -, settles⟩ := reached.sound.through isFinite time forward
    exact ⟨ticks, d, settles⟩

def begun (frequency : ExtendedRational) : ExtendedClock :=
  ⟨frequency, finite 0, finite 0⟩

theorem reached_begun {given : ExtendedRational → Prop} {frequency : ExtendedRational}
    (kind : given frequency) (accepted : ClockInput.isNonpositive frequency = false) :
    Reached given (begun frequency) := by
  refine .start kind ?_
  rw [Clock.start, accepted]
  rfl

/-- Two seconds at a frequency that does not divide into them. -/
theorem advance_ends_begun :
    Reached ExtendedRational.IsFinite (begun (finite (1000 / 3))) ∧
    ClockInput.isNegative (finite 2000) = false ∧
    ∃ ticks d, (begun (finite (1000 / 3))).advance (finite 2000) = .ok (ticks, d) ∧
      Settles (begun (finite (1000 / 3))) (finite 2000) ticks d := by
  have accepted : ClockInput.isNonpositive (finite (1000 / 3)) = false := by
    norm_num [ClockInput.isNonpositive, atMost]
  have forward : ClockInput.isNegative (finite 2000) = false := by
    norm_num [ClockInput.isNegative, below]
  have reached := reached_begun (isFinite_finite _) accepted
  obtain ⟨settled, -⟩ := advance_ends reached forward
  exact ⟨reached, forward, settled (fun _ kind => kind) (isFinite_finite _)⟩

/-- An endless time, an endless frequency and a time that is no number are all accepted. The first
two never end, and the third is kept for good. -/
theorem advance_needs_finite :
    ClockInput.isNegative infinity = false ∧ ClockInput.isNegative notANumber = false ∧
    Reached (fun _ => True) (begun (finite 600)) ∧ Reached (fun _ => True) (begun infinity) ∧
    (∀ ticks d, ¬ Settles (begun (finite 600)) infinity ticks d) ∧
    (∀ fits left, ¬ Drains (finite 1) ((begun infinity).stepsDue (finite 1)) fits left) ∧
    ∃ d, (begun (finite 600)).advance notANumber = .ok (⟨0, 0⟩, d) ∧ d.stepRemainder = notANumber ∧
      d.timerRemainder = notANumber := by
  have accepted : ClockInput.isNonpositive (finite 600) = false := by
    norm_num [ClockInput.isNonpositive, atMost]
  have endless : (begun infinity).stepsDue (finite 1) = infinity := by
    simp only [stepsDue, begun]
    rw [multiply_infinity one_pos, infinity_multiply (by norm_num)]
    rfl
  refine ⟨rfl, rfl, reached_begun trivial accepted, reached_begun trivial rfl, ?_, ?_,
    _, rfl, rfl, rfl⟩
  · intro ticks d settles
    obtain ⟨q, same⟩ := settles.isFinite.2
    cases same
  · intro fits left drains
    rw [endless] at drains
    exact not_drains_infinity 1 fits left drains

end ExtendedClock

end Chip8
