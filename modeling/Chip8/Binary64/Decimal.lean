import Chip8.Binary64.Rounding

/-! Decimal digits of binary64 numbers.

Two choices of digits are made: the fewest that read back as the same number, and a fixed count.
Both work on the exact value, a natural mantissa times a power of two.
-/

set_option autoImplicit false

namespace Chip8.Binary64

/-- A decimal fraction `0.d₁d₂… * 10 ^ point`. -/
structure Decimal where
  digits : List Char
  point : Int
  deriving DecidableEq, Repr

/-- The digits of `value * 10 ^ place`, without trailing zeros. -/
def Decimal.ofScaled (value : Nat) (place : Int) : Decimal :=
  let digits := Nat.toDigits 10 value
  ⟨(digits.reverse.dropWhile (· = '0')).reverse, digits.length + place⟩

/-- A finite positive number as `mantissa * 2 ^ exponent`. -/
structure Parts where
  mantissa : Nat
  exponent : Int
  deriving DecidableEq, Repr

/-- The parts of the number with the given bits, whose sign is ignored. -/
def Parts.ofBits (bits : Nat) : Parts :=
  let field : Nat := bits / leadingBit % 2048
  let low : Nat := bits % leadingBit
  if field = 0 then ⟨low, -1074⟩ else ⟨low + leadingBit, (field : Int) - 1075⟩

def Parts.ratio (p : Parts) : Nat × Nat :=
  scale p.mantissa 1 p.exponent

/-- Whether the neighbour below is only half as far as the one above. -/
def Parts.atBinade (p : Parts) : Bool :=
  p.mantissa == leadingBit && p.exponent > -1074

/-- Whether the decimal `value * 10 ^ place` is nearest to this number among the binary64 numbers. A
decimal midway between two numbers belongs to the one with the even mantissa. Distances are compared
in quarters of the last place. -/
def Parts.isNearest (p : Parts) (value : Nat) (place : Int) : Bool :=
  let (unit, den) := scale 1 4 p.exponent
  let power := Nat.pow 10 place.natAbs
  let (top, bottom) := if place < 0 then (value, power) else (value * power, 1)
  let decimal := top * den
  let low := (4 * p.mantissa - (if p.atBinade then 1 else 2)) * unit * bottom
  let high := (4 * p.mantissa + 2) * unit * bottom
  if p.mantissa % 2 = 0 then low ≤ decimal && decimal ≤ high
  else low < decimal && decimal < high

/-- The number of decimal digits before the point; zero or less counts zeros behind it. The inverse
of a number below one is never a power of ten, so its digits tell the zeros. -/
def Parts.pointPosition (p : Parts) : Int :=
  let (num, den) := p.ratio
  if den ≤ num then (Nat.toDigits 10 (num / den)).length
  else 1 - ((Nat.toDigits 10 (den / num)).length : Int)

/-- The two neighbours of a number on the grid of multiples of `10 ^ place`, and how twice the
distance from the lower one compares with a grid step. -/
def Parts.neighbours (p : Parts) (place : Int) : Nat × Ordering :=
  let (num, den) := p.ratio
  let power := Nat.pow 10 place.natAbs
  let (n, d) := if place < 0 then (num * power, den) else (num, den * power)
  (n / d, compare (2 * (n % d)) d)

def Parts.nearestOn (p : Parts) (place : Int) : Nat :=
  let (below, order) := p.neighbours place
  match order with
  | .lt => below
  | .gt => below + 1
  | .eq => if below % 2 = 0 then below else below + 1

/-- Search grids from coarse to fine for a point that reads back; of two such points the nearer
wins. Seventeen digits always suffice. -/
def Parts.searchGrids (p : Parts) (point : Int) : (remaining : Nat) → Decimal
  | 0 => Decimal.ofScaled (p.nearestOn (point - 17)) (point - 17)
  | remaining + 1 =>
    let place := point - ((17 - remaining : Nat) : Int)
    let (below, _) := p.neighbours place
    let near := p.nearestOn place
    let far := if near = below then below + 1 else below
    if p.isNearest near place then Decimal.ofScaled near place
    else if p.isNearest far place then Decimal.ofScaled far place
    else p.searchGrids point remaining

/-- The fewest digits that read back as the number. -/
def Parts.shortest (p : Parts) : Decimal :=
  p.searchGrids p.pointPosition 17

/-- The number rounded to a count of significant digits, ties to even. -/
def Parts.rounded (p : Parts) (count : Nat) : Decimal :=
  Decimal.ofScaled (p.nearestOn (p.pointPosition - count)) (p.pointPosition - count)

end Chip8.Binary64
