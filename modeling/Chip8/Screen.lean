import Chip8.Binary64.Rounding
import Chip8.Limits
import Chip8.Picture

/-! The screen: 64 by 32 pixels, each set or unset.

Sprites are eight pixels wide. Drawing one toggles the pixel under each of its set bits; positions
wrap around both edges. The screen remembers whether it may have changed since its buffer was last
taken.
-/

set_option autoImplicit false

namespace Chip8

structure Screen where
  /-- Pixels row by row. -/
  pixels : Vector Bool 2048
  changed : Bool
  deriving DecidableEq

inductive RenderError where
  | scaleTooSmall (scale : Int)
  /-- The gray value of unset pixels does not fit 64 bits. -/
  | paperTooLarge
  /-- The width of the picture does not fit 32 bits. -/
  | pictureTooWide
  /-- The width of the picture does not even fit 64 bits. -/
  | widthTooLarge
  | pictureTooLarge
  deriving DecidableEq, Repr

def RenderError.message : RenderError → String
  | scaleTooSmall scale => s!"scale must be at least 1, got {scale}"
  | paperTooLarge => "int too big to convert"
  | pictureTooWide => "signed integer is greater than maximum"
  | widthTooLarge => "Python int too large to convert to C long"
  | pictureTooLarge => "image has wrong mode"

namespace Screen

def width : Nat := 64

def height : Nat := 32

/-- The place of the pixel at a column and a row, which wrap around. -/
def cell (x y : Int) : Fin 2048 :=
  ⟨(y % 32 * 64 + x % 64).toNat, by omega⟩

def blank : Screen :=
  ⟨.replicate 2048 false, true⟩

def clear (_ : Screen) : Screen :=
  blank

def pixel (s : Screen) (x y : Int) : Bool :=
  s.pixels[cell x y]

/-- The bits of a sprite row, from the left. -/
def rowBits (b : UInt8) : List Bool :=
  [7, 6, 5, 4, 3, 2, 1, 0].map fun i => b.toNat.testBit i

@[simp] theorem length_rowBits (b : UInt8) : (rowBits b).length = 8 := rfl

/-- The places under the set bits of a sprite whose upper left corner is at `(x, y)`. Bits that do
not fill a row are ignored. -/
def spriteCells (x y : Int) (bits : List Bool) : List (Fin 2048) :=
  (bits.take (bits.length / 8 * 8)).zipIdx.filterMap fun (set, i) =>
    if set then some (cell (x + (i % 8 : Nat)) (y + (i / 8 : Nat))) else none

/-- Toggle a pixel, and note whether it was set before. -/
def toggle (state : Bool × Vector Bool 2048) (c : Fin 2048) : Bool × Vector Bool 2048 :=
  match state with
  | (collision, pixels) =>
    let before := pixels[c]
    (collision || before, pixels.set c (!before))

/-- Toggling pixels flips those that are toggled an odd number of times. -/
theorem getElem_foldl_toggle (cells : List (Fin 2048)) (state : Bool × Vector Bool 2048)
    (c : Fin 2048) :
    (cells.foldl toggle state).2[c] = (state.2[c] != decide (cells.count c % 2 = 1)) := by
  induction cells generalizing state with
  | nil => simp
  | cons head cells ih =>
    rw [List.foldl_cons, ih, List.count_cons]
    by_cases same : head = c
    · subst same
      have parity : decide ((cells.count head + 1) % 2 = 1) = !decide (cells.count head % 2 = 1) := by
        rw [← decide_not]
        exact decide_eq_decide.2 (by omega)
      simp only [beq_self_eq_true, if_true]
      rw [parity]
      cases before : state.2[head] <;> simp [toggle, before]
    · have distinct : head.val ≠ c.val := fun equal => same (Fin.ext equal)
      simp [toggle, same, distinct]

/-- Draw a sprite. The result is true if a set bit met a set pixel. -/
def draw (s : Screen) (x y : Int) (bits : List Bool) : Bool × Screen :=
  match s with
  | ⟨pixels, changed⟩ =>
    let (collision, pixels) := (spriteCells x y bits).foldl toggle (false, pixels)
    (collision, ⟨pixels, changed || 8 ≤ bits.length⟩)

/-- One byte per pixel, 255 or 0. Taking the buffer marks the screen as shown. -/
def buffer (s : Screen) : List UInt8 × Screen :=
  (s.pixels.toList.map fun set => if set then 255 else 0, { s with changed := false })

/-- The rows as text, with a text for each pixel. -/
def grid (s : Screen) (on off : String) : List String :=
  (List.range height).map fun (y : Nat) =>
    String.join ((List.range width).map fun (x : Nat) => if s.pixel x y then on else off)

def text (s : Screen) (on off : String) : String :=
  "\n".intercalate (s.grid on off)

def lit (s : Screen) : Nat :=
  s.pixels.toList.count true

/-- The gray value nearest to an integer. -/
def grayOf (value : Int) : UInt8 :=
  UInt8.ofNat (min value.toNat 255)

/-- The gray value of set pixels. An integer beyond binary64 counts as black, whatever its sign. -/
def inkGray (ink : Int) : UInt8 :=
  if (Binary64.ofInt? ink).isSome then grayOf ink else 0

theorem grayOf_natCast {n : Nat} (small : n < 256) : grayOf n = UInt8.ofNat n := by
  rw [grayOf, Int.toNat_natCast, Nat.min_eq_left (by omega)]

theorem inkGray_natCast {n : Nat} (small : n < 256) : inkGray n = UInt8.ofNat n := by
  have finite : ∀ m < 256, (Binary64.ofInt? (m : Nat)).isSome := by decide +kernel
  rw [inkGray, if_pos (finite n small), grayOf_natCast small]

/-- The picture of a screen, one pixel each. -/
def picture (s : Screen) (ink paper : Int) : Picture :=
  let set := inkGray ink
  let unset := grayOf paper
  { width, height, gray := fun x y => if s.pixel x y then set else unset }

/-- Whether a picture cannot be made at a scale on paper of some gray value. -/
def renderError? (scale paper : Int) : Option RenderError :=
  if scale < 1 then some (.scaleTooSmall scale)
  else if !Limits.isInt64 paper then some .paperTooLarge
  else if !Limits.isInt64 (width * scale) then some .widthTooLarge
  else if Limits.maxInt32 < width * scale then some .pictureTooWide
  else if Limits.maxBytes ≤ (width * scale) * (height * scale) then some .pictureTooLarge
  else none

/-- The picture with each pixel enlarged to `scale` by `scale`. -/
def render (s : Screen) (scale ink paper : Int) : Except RenderError Picture :=
  match renderError? scale paper with
  | some error => .error error
  | none => .ok ((s.picture ink paper).enlarge scale.toNat)

def summary (s : Screen) : String :=
  s!"Display({width}x{height}, lit={s.lit})"

end Screen

end Chip8
