/-! Grayscale pictures. -/

set_option autoImplicit false

namespace Chip8

/-- A picture, given by the gray value of each column and row; 0 is black and 255 is white. -/
structure Picture where
  width : Nat
  height : Nat
  gray : (column row : Nat) → UInt8

namespace Picture

/-- Repeat each pixel `factor` times along both axes. -/
def enlarge (p : Picture) (factor : Nat) : Picture where
  width := p.width * factor
  height := p.height * factor
  gray column row := p.gray (column / factor) (row / factor)

/-- The pixels of a row, from left to right. -/
def row (p : Picture) (y : Nat) : List UInt8 :=
  (List.range p.width).map fun x => p.gray x y

def pixels (p : Picture) : List UInt8 :=
  (List.range p.height).flatMap p.row

end Picture

end Chip8
