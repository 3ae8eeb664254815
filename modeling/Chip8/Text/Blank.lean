/-! Blank characters.

Text is trimmed by the white space of Unicode together with the four ASCII information separators.
A numeral is trimmed by the same set without those separators.
-/

set_option autoImplicit false

namespace Chip8.Text

/-- The ASCII characters that separate fields, records, groups and files. -/
def isSeparator (c : Char) : Bool :=
  0x1C ≤ c.toNat && c.toNat ≤ 0x1F

/-- White space as numerals know it. -/
def isSpace (c : Char) : Bool :=
  let n := c.toNat
  (0x09 ≤ n && n ≤ 0x0D) || n == 0x20 || n == 0x85 || n == 0xA0 || n == 0x1680 ||
    (0x2000 ≤ n && n ≤ 0x200A) || n == 0x2028 || n == 0x2029 || n == 0x202F || n == 0x205F ||
    n == 0x3000

/-- White space as text knows it. -/
def isBlank (c : Char) : Bool :=
  isSpace c || isSeparator c

/-- Drop the characters of a class from both ends. -/
def trimBy (drop : Char → Bool) (cs : List Char) : List Char :=
  ((cs.dropWhile drop).reverse.dropWhile drop).reverse

def trim (cs : List Char) : List Char :=
  trimBy isBlank cs

end Chip8.Text
