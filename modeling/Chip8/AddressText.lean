import Chip8.Numeral.Integer

/-! Texts of addresses: hexadecimal behind `0x` or `$`, and decimal otherwise. -/

set_option autoImplicit false

namespace Chip8

structure AddressError where
  text : String
  deriving DecidableEq, Repr

def AddressError.message (e : AddressError) : String :=
  s!"Invalid address '{e.text}'"

/-- The number that a text names. A sign stands behind `$` and cannot stand before `0x`. -/
def addressNumber? (text : String) : Option Int :=
  match text.toList with
  | '0' :: 'x' :: _ | '0' :: 'X' :: _ => Numeral.hexadecimal? text
  | '$' :: cs => Numeral.hexadecimal? (String.ofList cs)
  | _ => Numeral.decimal? text

def parseAddress (text : String) : Except AddressError Int :=
  match addressNumber? text with
  | some n => .ok n
  | none => .error ⟨text⟩

end Chip8
