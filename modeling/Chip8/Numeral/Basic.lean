import Chip8.Text.Blank
import Chip8.Text.DecimalDigit

/-! What all numerals share: trimming, digits of any script, and underscores between digits. -/

set_option autoImplicit false

namespace Chip8.Numeral

/-- Replace a digit of another script by the ASCII digit of the same value. -/
def plain (c : Char) : Char :=
  if c.toNat < 128 then c
  else match Text.decimalValue? c with
    | some d => Char.ofNat (48 + d)
    | none => c

/-- The characters of a numeral, trimmed and with plain digits. -/
def chars (s : String) : List Char :=
  (Text.trimBy Text.isSpace s.toList).map plain

/-- Split off an optional sign; `true` means negative. -/
def splitSign : List Char → Bool × List Char
  | '-' :: cs => (true, cs)
  | '+' :: cs => (false, cs)
  | cs => (false, cs)

/-- The value of a plain digit below a base of at most sixteen. -/
def digitValue? (base : Nat) (c : Char) : Option Nat :=
  let n := c.toNat
  let value :=
    if 48 ≤ n && n ≤ 57 then n - 48
    else if 65 ≤ n && n ≤ 70 then n - 55
    else if 97 ≤ n && n ≤ 102 then n - 87
    else base
  if value < base then some value else none

/-- Continue a digit sequence whose value so far is known. An underscore needs a digit on both
sides. -/
def digitsFrom (base : Nat) : (value : Nat) → (afterDigit : Bool) → List Char → Option Nat
  | value, afterDigit, [] => if afterDigit then some value else none
  | value, afterDigit, c :: cs =>
    if c = '_' then
      if afterDigit then digitsFrom base value false cs else none
    else match digitValue? base c with
      | some d => digitsFrom base (value * base + d) true cs
      | none => none

def digits (base : Nat) (cs : List Char) : Option Nat :=
  digitsFrom base 0 false cs

end Chip8.Numeral
