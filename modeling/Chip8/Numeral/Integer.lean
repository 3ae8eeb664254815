import Chip8.Numeral.Basic

/-! Integer numerals in base ten and sixteen. -/

set_option autoImplicit false

namespace Chip8.Numeral

/-- The longest decimal numeral that is read or written, in digits. -/
def maxDecimalDigits : Nat := 4300

/-- A decimal integer: an optional sign and digits. -/
def decimal? (s : String) : Option Int :=
  let (negative, cs) := splitSign (chars s)
  if (cs.filter (· != '_')).length > maxDecimalDigits then none
  else (digits 10 cs).map fun n => if negative then -(n : Int) else n

/-- Whether an integer has a decimal numeral that is not too long. -/
def isWritable (n : Int) : Bool :=
  n.natAbs < Nat.pow 10 maxDecimalDigits

/-- Drop the mark of base sixteen and one underscore behind it. -/
def dropHexMark : List Char → List Char
  | '0' :: 'x' :: '_' :: cs => cs
  | '0' :: 'X' :: '_' :: cs => cs
  | '0' :: 'x' :: cs => cs
  | '0' :: 'X' :: cs => cs
  | cs => cs

/-- A hexadecimal integer: an optional sign, an optional `0x` and digits. -/
def hexadecimal? (s : String) : Option Int :=
  let (negative, cs) := splitSign (chars s)
  (digits 16 (dropHexMark cs)).map fun n => if negative then -(n : Int) else n

end Chip8.Numeral
