import Chip8.Binary64.Decimal

/-! Text of binary64 numbers.

A style says how many digits are shown, up to which exponent they are written positionally and
whether a whole number keeps a fraction. Exponents below -4 are never positional.
-/

set_option autoImplicit false

namespace Chip8.Binary64

structure Style where
  digits : Parts → Decimal
  /-- The first decimal exponent that is written out. -/
  exponentFrom : Int
  /-- Whether a whole number ends in `.0`. -/
  keepsFraction : Bool

/-- All the digits that tell a number from its neighbours; positional below 10^16. -/
def Style.full : Style := ⟨Parts.shortest, 16, true⟩

/-- Six significant digits; positional below 10^6. -/
def Style.brief : Style := ⟨(·.rounded 6), 6, false⟩

/-- A decimal exponent with its sign and at least two digits. -/
def exponentText (exponent : Int) : List Char :=
  let digits := Nat.toDigits 10 exponent.natAbs
  'e' :: (if exponent < 0 then '-' else '+') ::
    (if digits.length < 2 then '0' :: digits else digits)

def fractionText (digits : List Char) : List Char :=
  if digits.isEmpty then [] else '.' :: digits

def Decimal.chars (style : Style) (d : Decimal) : List Char :=
  let exponent := d.point - 1
  if -4 ≤ exponent && exponent < style.exponentFrom then
    if d.point ≤ 0 then '0' :: '.' :: (List.replicate d.point.natAbs '0' ++ d.digits)
    else
      let whole := d.digits.take d.point.toNat
      let fraction := d.digits.drop d.point.toNat
      whole ++ List.replicate (d.point.toNat - whole.length) '0' ++
        (if style.keepsFraction && fraction.isEmpty then ['.', '0'] else fractionText fraction)
  else d.digits.take 1 ++ fractionText (d.digits.drop 1) ++ exponentText exponent

def bitsText (style : Style) (bits : Nat) : String :=
  let sign := if bits / signBit % 2 = 1 then "-" else ""
  let magnitude := bits % signBit
  if magnitude > infinityBits then "nan"
  else if magnitude = infinityBits then sign ++ "inf"
  else if magnitude = 0 then sign ++ (if style.keepsFraction then "0.0" else "0")
  else sign ++ String.ofList ((style.digits (Parts.ofBits magnitude)).chars style)

def text (style : Style) (x : Float) : String :=
  bitsText style x.toBits.toNat

end Chip8.Binary64
