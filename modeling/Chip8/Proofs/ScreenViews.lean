import Mathlib.Data.Fintype.Fin
import Mathlib.Data.Fintype.Prod
import Chip8.Proofs.SpriteDrawing

/-! Views of the screen.

The buffer, the rows of text and a rendered picture show a pixel each in its own way: as a byte, as a
character and as a square of gray. They show the same pixel at the same column and row. Looking leaves
the screen as it is, except that taking the buffer marks it as shown.
-/

set_option autoImplicit false

namespace Chip8

/-! ### Rows -/

section RowMajor

variable {α : Type} {width height column row : Nat}

def rowMajor (width height : Nat) (value : (column row : Nat) → α) : List α :=
  (List.range height).flatMap fun row => (List.range width).map fun column => value column row

theorem rowMajor_succ (width height : Nat) (value : (column row : Nat) → α) :
    rowMajor width (height + 1) value =
      rowMajor width height value ++ (List.range width).map fun column => value column height := by
  rw [rowMajor, List.range_succ, List.flatMap_append, List.flatMap_singleton, ← rowMajor]

theorem length_rowMajor (width height : Nat) (value : (column row : Nat) → α) :
    (rowMajor width height value).length = width * height := by
  induction height with
  | zero => rfl
  | succ height ih =>
    rw [rowMajor_succ, List.length_append, ih, List.length_map, List.length_range, Nat.mul_succ]

theorem getElem?_rowMajor (value : (column row : Nat) → α) (across : column < width)
    (down : row < height) :
    (rowMajor width height value)[width * row + column]? = some (value column row) := by
  induction height with
  | zero => exact absurd down (Nat.not_lt_zero row)
  | succ height ih =>
    rw [rowMajor_succ]
    rcases Nat.lt_succ_iff_lt_or_eq.1 down with above | rfl
    · have inside : width * row + column < (rowMajor width height value).length := by
        rw [length_rowMajor, Nat.mul_comm width height]
        exact Nat.mul_add_lt_mul_of_lt_of_lt above across
      rw [List.getElem?_append_left inside, ih above]
    · rw [List.getElem?_append_right (by rw [length_rowMajor]; omega), length_rowMajor,
        Nat.add_sub_cancel_left]
      simp [across]

theorem map_rowMajor {β : Type} (change : α → β) (value : (column row : Nat) → α) :
    (rowMajor width height value).map change =
      rowMajor width height fun column row => change (value column row) := by
  simp only [rowMajor, List.map_flatMap, List.map_map, Function.comp_def]

end RowMajor

namespace Picture

theorem pixels_eq (p : Picture) : p.pixels = rowMajor p.width p.height p.gray := rfl

/-- Enlarge as far as a host can: it counts columns in 32 bits, and bytes as far as its limit. -/
def enlargeWithin (p : Picture) (factor : Nat) : Except RenderError Picture :=
  if !Limits.isInt64 (p.width * factor) then .error .widthTooLarge
  else if Limits.maxInt32 < (p.width * factor : Int) then .error .pictureTooWide
  else if Limits.maxBytes ≤ (p.width * factor : Int) * (p.height * factor) then
    .error .pictureTooLarge
  else .ok (p.enlarge factor)

theorem enlarge_one (p : Picture) : p.enlarge 1 = p := by
  simp only [enlarge, Nat.mul_one, Nat.div_one]

end Picture

namespace Screen

/-! ### Looking -/

inductive View where
  | pixel (x y : Int)
  | buffer
  | grid (on off : String)
  | text (on off : String)
  | lit
  | render (scale ink paper : Int)
  | summary
  deriving DecidableEq

inductive Sight where
  | pixel (set : Bool)
  | bytes (data : List UInt8)
  | rows (lines : List String)
  | text (shown : String)
  | count (lit : Nat)
  | picture (rendered : Except RenderError Picture)

def look (s : Screen) : View → Sight × Screen
  | .pixel x y => (.pixel (s.pixel x y), s)
  | .buffer => (.bytes s.buffer.1, s.buffer.2)
  | .grid on off => (.rows (s.grid on off), s)
  | .text on off => (.text (s.text on off), s)
  | .lit => (.count s.lit, s)
  | .render scale ink paper => (.picture (s.render scale ink paper), s)
  | .summary => (.text s.summary, s)

theorem snd_look (s : Screen) (view : View) :
    (s.look view).2 = if view = .buffer then { s with changed := false } else s := by
  cases view <;> rfl

structure Denotes {α : Type} (set unset : α) (shown : Option α) (pixel : Bool) : Prop where
  on_iff : shown = some set ↔ pixel = true
  off_iff : shown = some unset ↔ pixel = false

theorem Denotes.of_shown {α : Type} {set unset : α} {shown : Option α} {pixel : Bool}
    (distinct : set ≠ unset) (given : shown = some (if pixel then set else unset)) :
    Denotes set unset shown pixel := by
  subst given
  cases pixel with
  | false => exact ⟨by simp [distinct.symm], by simp⟩
  | true => exact ⟨by simp, by simp [distinct]⟩

/-! ### The buffer -/

theorem cell_val (x y : Int) : (cell x y).val = 64 * (y % 32).toNat + (x % 64).toNat := by
  simp only [cell]
  omega

def cellEquiv : Fin 64 × Fin 32 ≃ Fin 2048 where
  toFun c := cell c.1 c.2
  invFun i := (⟨i % 64, Nat.mod_lt i (by decide)⟩, ⟨i / 64, by omega⟩)
  left_inv c := by
    refine Prod.ext (Fin.ext ?_) (Fin.ext ?_) <;> simp only [cell_val] <;> omega
  right_inv i := by
    refine Fin.ext ?_
    simp only [cell_val]
    omega

section Pixels

variable (s : Screen) (x y : Int)

theorem getElem?_toList_pixels :
    s.pixels.toList[64 * (y % 32).toNat + (x % 64).toNat]? = some (s.pixel x y) := by
  rw [← cell_val, Vector.getElem?_toList]
  exact Vector.getElem?_eq_getElem (cell x y).isLt

theorem pixel_toNat : s.pixel (x % 64).toNat (y % 32).toNat = s.pixel x y :=
  s.pixel_congr (by omega) (by omega)

end Pixels

theorem toList_pixels (s : Screen) :
    s.pixels.toList = rowMajor width height fun column row => s.pixel column row := by
  refine List.ext_getElem? fun i => ?_
  by_cases inside : i < 2048
  · have place : i = 64 * (i / 64) + i % 64 := (Nat.div_add_mod i 64).symm
    have stored := s.getElem?_toList_pixels (i % 64 : Nat) (i / 64 : Nat)
    have column : ((i % 64 : Nat) % 64 : Int).toNat = i % 64 := by omega
    have row : ((i / 64 : Nat) % 32 : Int).toNat = i / 64 := by omega
    rw [column, row] at stored
    have across : i % 64 < width := Nat.mod_lt i (by decide)
    have down : i / 64 < height := Nat.div_lt_of_lt_mul inside
    rw [place, stored]
    exact (getElem?_rowMajor (fun column row => s.pixel column row) across down).symm
  · rw [List.getElem?_eq_none (by simpa using inside),
      List.getElem?_eq_none (by simpa [length_rowMajor, width, height] using inside)]

structure BufferShows (s : Screen) : Prop where
  length : s.buffer.1.length = 2048
  pixel : ∀ x y : Int,
    Denotes 255 0 s.buffer.1[64 * (y % 32).toNat + (x % 64).toNat]? (s.pixel x y)

theorem buffer_shows (s : Screen) : s.BufferShows where
  length := by simp [buffer]
  pixel x y := by
    apply Denotes.of_shown (by decide)
    rw [buffer, List.getElem?_map, getElem?_toList_pixels]
    rfl

/-! ### Text -/

/-- The rows of text, which are also those of the whole text, have a character for each pixel. -/
structure TextShows (s : Screen) (on off : Char) : Prop where
  rows : (s.grid (.singleton on) (.singleton off)).length = 32
  columns : ∀ row ∈ s.grid (.singleton on) (.singleton off), row.length = 64
  lines : (s.text (.singleton on) (.singleton off)).toList.splitOn '\n' =
    (s.grid (.singleton on) (.singleton off)).map String.toList
  pixel : ∀ x y : Int, Denotes on off
    ((s.grid (.singleton on) (.singleton off))[(y % 32).toNat]?.bind (·.toList[(x % 64).toNat]?))
    (s.pixel x y)

def rowChars (s : Screen) (on off : Char) (row : Nat) : List Char :=
  (List.range width).map fun column : Nat => if s.pixel column row then on else off

section Text

variable (s : Screen) {on off : Char}

theorem toList_grid (on off : Char) :
    (s.grid (.singleton on) (.singleton off)).map String.toList =
      (List.range height).map (s.rowChars on off) := by
  rw [grid, List.map_map]
  refine List.map_congr_left fun row _ => ?_
  simp only [Function.comp, String.toList_join, List.flatMap_map, ← apply_ite String.singleton,
    String.toList_singleton, rowChars]
  exact List.map_eq_flatMap.symm

theorem getElem?_grid (on off : Char) {row : Nat} (down : row < height) :
    (s.grid (.singleton on) (.singleton off))[row]?.map String.toList =
      some (s.rowChars on off row) := by
  rw [← List.getElem?_map, toList_grid, List.getElem?_map, List.getElem?_range down, Option.map_some]

theorem mem_rowChars {row : Nat} {c : Char} (member : c ∈ s.rowChars on off row) :
    c = on ∨ c = off := by
  obtain ⟨column, -, rfl⟩ := List.mem_map.1 member
  exact ite_eq_or_eq _ on off

theorem text_shows (distinct : on ≠ off) (onPlain : on ≠ '\n') (offPlain : off ≠ '\n') :
    s.TextShows on off where
  rows := by simp [grid, height]
  columns row member := by
    have chars := List.mem_map_of_mem (f := String.toList) member
    rw [toList_grid] at chars
    obtain ⟨y, -, shape⟩ := List.mem_map.1 chars
    rw [← String.length_toList, ← shape, rowChars, List.length_map, List.length_range]
    rfl
  lines := by
    rw [text, String.toList_intercalate]
    apply List.splitOn_intercalate
    · rw [toList_grid]
      intro line member
      obtain ⟨row, -, rfl⟩ := List.mem_map.1 member
      intro newline
      rcases s.mem_rowChars newline with same | same
      · exact onPlain same.symm
      · exact offPlain same.symm
    · simp [grid, height]
  pixel x y := by
    apply Denotes.of_shown distinct
    have down : (y % 32).toNat < height := by
      simp only [height]
      omega
    have across : (x % 64).toNat < width := by
      simp only [width]
      omega
    obtain ⟨row, listed, shape⟩ := Option.map_eq_some_iff.1 (s.getElem?_grid on off down)
    rw [listed, Option.bind_some, shape, rowChars, List.getElem?_map, List.getElem?_range across,
      Option.map_some, pixel_toNat]

end Text

/-! ### Pictures -/

/-- The picture rendered by a host that has its own way to enlarge one. -/
def renderBy (enlarge : Picture → Nat → Except RenderError Picture) (s : Screen)
    (scale ink paper : Int) : Except RenderError Picture :=
  if scale < 1 then .error (.scaleTooSmall scale)
  else if 1 < scale then enlarge (s.picture ink paper) scale.toNat
  else .ok (s.picture ink paper)

/-- Before it is enlarged, a picture holds the pixels in the order in which they are stored. -/
theorem pixels_picture (s : Screen) (ink paper : Int) :
    (s.picture ink paper).pixels =
      s.pixels.toList.map fun set => if set then inkGray ink else grayOf paper := by
  rw [Picture.pixels_eq, toList_pixels, map_rowMajor]
  rfl

/-- Enlarging by a factor repeats each pixel of a picture of the screen along both axes. -/
def Repeats (enlarge : Picture → Nat → Except RenderError Picture) (factor : Nat) : Prop :=
  ∀ p : Picture, p.width = width → p.height = height → enlarge p factor = .ok (p.enlarge factor)

theorem repeats_enlargeWithin {factor : Nat} (small : factor < 1024) :
    Repeats Picture.enlargeWithin factor := by
  intro p wide high
  have columns : (64 * factor : Int) ≤ 64 * 1023 := by omega
  have rows : (32 * factor : Int) ≤ 32 * 1023 := by omega
  have bytes : (64 * factor : Int) * (32 * factor) ≤ 64 * 1023 * (32 * 1023) :=
    Int.mul_le_mul columns rows (by omega) (by omega)
  have int64 : Limits.isInt64 (64 * factor) := Limits.isInt64_eq_true_iff.2 ⟨by omega, by omega⟩
  simp only [Picture.enlargeWithin, wide, high, width, height, Nat.cast_ofNat, int64,
    Limits.maxInt32, Limits.maxBytes]
  rw [if_neg (by decide), if_neg (by omega), if_neg (by omega)]

/-- A picture has a square of gray for each pixel, and is stored row by row. -/
structure PictureShows (s : Screen) (scale : Nat) (ink paper : UInt8) (p : Picture) : Prop where
  width : p.width = 64 * scale
  height : p.height = 32 * scale
  length : p.pixels.length = p.width * p.height
  pixel : ∀ (x y : Int) (dx dy : Nat), dx < scale → dy < scale →
    Denotes ink paper
      p.pixels[p.width * (scale * (y % 32).toNat + dy) + (scale * (x % 64).toNat + dx)]?
      (s.pixel x y)

section Pictures

variable (s : Screen) {scale : Nat}

theorem render_eq_renderBy (scale ink : Int) {paper : Int} (gray : Limits.isInt64 paper) :
    s.render scale ink paper = s.renderBy Picture.enlargeWithin scale ink paper := by
  rw [render, renderBy, renderError?]
  by_cases small : scale < 1
  · rw [if_pos small, if_pos small]
  · rw [if_neg small, if_neg small, gray, if_neg (by decide)]
    by_cases more : 1 < scale
    · have cast : (scale.toNat : Int) = scale := Int.toNat_of_nonneg (by omega)
      simp only [if_pos more, Picture.enlargeWithin, picture, cast]
      grind
    · obtain rfl : scale = 1 := by omega
      exact congrArg Except.ok (Picture.enlarge_one _)

theorem renderBy_of_repeats {enlarge : Picture → Nat → Except RenderError Picture} (ink paper : Int)
    (positive : 1 ≤ scale) (repeats : Repeats enlarge scale) :
    s.renderBy enlarge scale ink paper = .ok ((s.picture ink paper).enlarge scale) := by
  rw [renderBy, if_neg (by omega)]
  split
  · rw [Int.toNat_natCast]
    exact repeats _ rfl rfl
  · have one : scale = 1 := by omega
    rw [one, Picture.enlarge_one]

theorem picture_shows {ink paper : Int} (distinct : inkGray ink ≠ grayOf paper) :
    s.PictureShows scale (inkGray ink) (grayOf paper) ((s.picture ink paper).enlarge scale) where
  width := rfl
  height := rfl
  length := by rw [Picture.pixels_eq, length_rowMajor]
  pixel x y dx dy right below := by
    apply Denotes.of_shown distinct
    have across : scale * (x % 64).toNat + dx < 64 * scale :=
      Nat.mul_add_lt_mul_of_lt_of_lt (by omega) right
    have down : scale * (y % 32).toNat + dy < 32 * scale :=
      Nat.mul_add_lt_mul_of_lt_of_lt (by omega) below
    rw [Picture.pixels_eq]
    refine (getElem?_rowMajor _ across down).trans ?_
    have positive : 0 < scale := Nat.lt_of_le_of_lt (Nat.zero_le dx) right
    simp only [Picture.enlarge, picture, Nat.mul_add_div positive, Nat.div_eq_of_lt right,
      Nat.div_eq_of_lt below, Nat.add_zero, pixel_toNat]

end Pictures

/-! ### The lit pixels -/

def litPlaces (s : Screen) : Finset (Fin 64 × Fin 32) :=
  {c | s.pixel c.1 c.2 = true}

theorem count_toList {n : Nat} (bits : Vector Bool n) :
    bits.toList.count true = Finset.card {i : Fin n | bits.get i = true} := by
  have counted := Fin.card_filter_univ_eq_vector_get_eq_count true
    (⟨bits.toList, bits.length_toList⟩ : List.Vector Bool n)
  refine counted.symm.trans (congrArg Finset.card (Finset.filter_congr fun i _ => ?_))
  change bits.toList.get ⟨i.val, _⟩ = true ↔ _
  rw [List.get_eq_getElem, Vector.getElem_toList]
  rfl

theorem lit_eq_card (s : Screen) : s.lit = s.litPlaces.card := by
  rw [lit, count_toList]
  refine (Finset.card_equiv cellEquiv fun c => ?_).symm
  rw [litPlaces, Finset.mem_filter_univ, Finset.mem_filter_univ]
  rfl

/-- Every view shows the same pixel at a column and a row, which wrap around, and the number of the
set ones. Taking the buffer only marks the screen as shown, and other views change nothing. -/
theorem views_agree (s : Screen) :
    s.BufferShows ∧
    (∀ on off : Char, on ≠ off → on ≠ '\n' → off ≠ '\n' → s.TextShows on off) ∧
    (∀ ink paper : Int, (s.picture ink paper).pixels =
      s.pixels.toList.map fun set => if set then inkGray ink else grayOf paper) ∧
    (∀ (enlarge : Picture → Nat → Except RenderError Picture) (scale ink paper : Nat),
      1 ≤ scale → Repeats enlarge scale → ink < 256 → paper < 256 → ink ≠ paper →
        ∃ p, s.renderBy enlarge scale ink paper = .ok p ∧
          s.PictureShows scale (.ofNat ink) (.ofNat paper) p) ∧
    (∀ scale ink paper : Int, 0 ≤ paper → paper < 256 →
      s.render scale ink paper = s.renderBy Picture.enlargeWithin scale ink paper) ∧
    s.lit = s.litPlaces.card ∧
    ∀ view, (s.look view).2 = if view = .buffer then { s with changed := false } else s := by
  refine ⟨s.buffer_shows, fun on off => s.text_shows, s.pixels_picture, ?_, ?_, s.lit_eq_card,
    s.snd_look⟩
  · intro enlarge scale ink paper positive repeats inkGray paperGray distinct
    refine ⟨_, s.renderBy_of_repeats ink paper positive repeats, ?_⟩
    rw [← inkGray_natCast inkGray, ← grayOf_natCast paperGray]
    apply picture_shows
    rw [inkGray_natCast inkGray, grayOf_natCast paperGray]
    intro same
    have equal := congrArg UInt8.toNat same
    rw [UInt8.toNat_ofNat_of_lt' inkGray, UInt8.toNat_ofNat_of_lt' paperGray] at equal
    exact distinct equal
  · intro scale ink paper nonneg small
    exact s.render_eq_renderBy scale ink (Limits.isInt64_eq_true_iff.2 ⟨by omega, by omega⟩)

/-- Squares of two by two, and a picture that is too large. -/
theorem views_agree_cornered :
    Repeats Picture.enlargeWithin 2 ∧ cornered.TextShows '#' '.' ∧
      (∃ p, cornered.renderBy Picture.enlargeWithin (2 : Nat) (255 : Nat) (0 : Nat) = .ok p ∧
        cornered.PictureShows 2 255 0 p) ∧
      cornered.render 1024 255 0 = cornered.renderBy Picture.enlargeWithin 1024 255 0 := by
  have repeats : Repeats Picture.enlargeWithin 2 := repeats_enlargeWithin (by decide)
  obtain ⟨-, text, -, picture, render, -⟩ := views_agree cornered
  exact ⟨repeats, text '#' '.' (by decide) (by decide) (by decide),
    picture Picture.enlargeWithin 2 255 0 (by decide) repeats (by decide) (by decide) (by decide),
    render 1024 255 0 (by decide) (by decide)⟩

end Screen

end Chip8
