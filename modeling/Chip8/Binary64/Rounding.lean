/-! Rounding of exact numbers to binary64.

A finite binary64 number is a mantissa below 2^53 times a power of two with exponent at least -1074.
A ratio goes to the nearest such number and a tie to the even mantissa; what is too large becomes
infinite.
-/

set_option autoImplicit false

namespace Chip8.Binary64

def divideToEven (num den : Nat) : Nat :=
  let quotient := num / den
  let twice := 2 * (num % den)
  if twice > den || (twice == den && quotient % 2 == 1) then quotient + 1 else quotient

/-- A ratio times a power of two, as a ratio. -/
def scale (num den : Nat) (exponent : Int) : Nat × Nat :=
  if exponent < 0 then (num, den * Nat.pow 2 exponent.natAbs)
  else (num * Nat.pow 2 exponent.natAbs, den)

/-- The least mantissa of a normal number, 2^52. -/
def leadingBit : Nat := 0x10000000000000

/-- The exponent of the last place of the number nearest to a positive ratio. -/
def lastPlace (num den : Nat) : Int :=
  let guess : Int := (num.log2 : Int) - den.log2 - 53
  let (n, d) := scale num den (-guess)
  max (if n / d ≥ 2 * leadingBit then guess + 1 else guess) (-1074)

def infinityBits : Nat := 0x7FF0000000000000

/-- The bits of the number nearest to a nonnegative ratio. -/
def bitsOfRatio (num den : Nat) : Nat :=
  if num = 0 then 0
  else
    let place := lastPlace num den
    let (n, d) := scale num den (-place)
    let mantissa := divideToEven n d
    let bits :=
      if mantissa < leadingBit then mantissa
      else (place + 1074).toNat * leadingBit + mantissa
    min bits infinityBits

def signBit : Nat := 0x8000000000000000

def signed (negative : Bool) (bits : Nat) : Float :=
  Float.ofBits (UInt64.ofNat (if negative then bits + signBit else bits))

def ofInt? (n : Int) : Option Float :=
  let bits := bitsOfRatio n.natAbs 1
  if bits = infinityBits then none else some (signed (n < 0) bits)

/-- The number nearest to `mantissa * 10 ^ exponent`, or its negative. Numbers far outside the range
are settled by the count of their digits. -/
def ofDecimal (negative : Bool) (mantissa : Nat) (exponent : Int) : Float :=
  let magnitude := (Nat.toDigits 10 mantissa).length + exponent
  signed negative <|
    if mantissa = 0 || magnitude < -330 then 0
    else if magnitude > 310 then infinityBits
    else if exponent < 0 then bitsOfRatio mantissa (Nat.pow 10 exponent.natAbs)
    else bitsOfRatio (mantissa * Nat.pow 10 exponent.natAbs) 1

end Chip8.Binary64
