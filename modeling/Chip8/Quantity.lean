import Chip8.Binary64.Text

/-! Quantities: whole numbers of any size, and binary64 numbers.

Frequencies and times may be given as either. A whole number keeps its own text and is multiplied
exactly; it is rounded once, when a binary64 number is needed.
-/

set_option autoImplicit false

namespace Chip8

inductive Quantity where
  | whole (n : Int)
  | real (x : Float)

namespace Quantity

/-- The text shown in messages. -/
def text : Quantity → String
  | whole n => toString n
  | real x => Binary64.text .full x

/-- The nearest binary64 number, unless a whole number is too large for one. -/
def toFloat? : Quantity → Option Float
  | whole n => Binary64.ofInt? n
  | real x => some x

def brief (q : Quantity) : String :=
  match q.toFloat? with
  | some x => Binary64.text .brief x
  | none => q.text

/-- Whether a quantity is zero or below. Not-a-number is not. -/
def isNonpositive : Quantity → Bool
  | whole n => n ≤ 0
  | real x => x ≤ 0

/-- Whether a quantity is below zero. Not-a-number is not. -/
def isNegative : Quantity → Bool
  | whole n => n < 0
  | real x => x < 0

/-- The product, unless a whole number is too large to be rounded. -/
def product? (a b : Quantity) : Option Quantity :=
  match a, b with
  | whole m, whole n => some (whole (m * n))
  | _, _ => do
    let x ← a.toFloat?
    let y ← b.toFloat?
    return real (x * y)

end Quantity

end Chip8
