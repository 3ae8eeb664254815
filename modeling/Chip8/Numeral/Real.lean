import Chip8.Binary64.Rounding
import Chip8.Numeral.Basic

/-! Real numerals: decimal fractions with an optional exponent, `inf`, `infinity` and `nan`. -/

set_option autoImplicit false

namespace Chip8.Numeral

def isDigit (c : Char) : Bool :=
  (digitValue? 10 c).isSome

/-- Drop underscores, each of which must stand between two digits. -/
def dropUnderscores? : (previous : Char) → List Char → Option (List Char)
  | _, [] => some []
  | previous, '_' :: cs =>
    match cs with
    | c :: _ => if isDigit previous && isDigit c then dropUnderscores? '_' cs else none
    | [] => none
  | _, c :: cs => (dropUnderscores? c cs).map (c :: ·)

/-- The value of digits that are known to be digits; an empty sequence is zero. -/
def natural (cs : List Char) : Nat :=
  cs.foldl (fun value c => value * 10 + (c.toNat - 48)) 0

/-- The power of ten named by what follows a mantissa. -/
def exponent? : List Char → Option Int
  | [] => some 0
  | c :: cs =>
    if c = 'e' || c = 'E' then
      let (negative, ds) := splitSign cs
      if ds.isEmpty || !ds.all isDigit then none
      else some (if negative then -(natural ds : Int) else natural ds)
    else none

/-- An unsigned decimal fraction: digits with an optional point, at least one digit in all, and an
optional exponent. -/
def fraction? (negative : Bool) (cs : List Char) : Option Float :=
  let whole := cs.takeWhile isDigit
  let rest := cs.dropWhile isDigit
  let (places, rest) :=
    match rest with
    | '.' :: tail => (tail.takeWhile isDigit, tail.dropWhile isDigit)
    | _ => ([], rest)
  if whole.isEmpty && places.isEmpty then none
  else (exponent? rest).map fun e =>
    Binary64.ofDecimal negative (natural (whole ++ places)) (e - places.length)

def real? (s : String) : Option Float :=
  match dropUnderscores? ' ' (chars s) with
  | none => none
  | some cs =>
    let (negative, cs) := splitSign cs
    let word := String.ofList (cs.map Char.toLower)
    if word = "inf" || word = "infinity" then
      some (Binary64.signed negative Binary64.infinityBits)
    else if word = "nan" then some (0.0 / 0.0)
    else fraction? negative cs

end Chip8.Numeral
