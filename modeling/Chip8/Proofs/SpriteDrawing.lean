import Mathlib.Algebra.Ring.Parity
import Mathlib.Data.Finset.Card
import Mathlib.Data.Finset.Prod
import Chip8.Screen

/-! Drawing a sprite, pixel by pixel.

Drawing toggles each pixel as often as set bits of the sprite lie over it. The collision tells whether
a set bit met a pixel that was set when drawing came to that bit; only a sprite that is taller than
the screen comes to a pixel twice, so of any other the collision tells of the pixels that drawing
unsets.
-/

set_option autoImplicit false

namespace Chip8.Screen

/-- The set bits in the full rows of a sprite, each given by its row and its column. -/
def setBits (bits : List Bool) : Finset (Nat × Nat) :=
  {b ∈ Finset.range (bits.length / 8) ×ˢ Finset.range 8 | bits[8 * b.1 + b.2]? = some true}

def bitsOver (x y : Int) (bits : List Bool) (px py : Int) : Finset (Nat × Nat) :=
  {b ∈ setBits bits | (x + b.2) % 64 = px % 64 ∧ (y + b.1) % 32 = py % 32}

/-- The pixel under a bit when drawing, which goes row by row, comes to that bit: as it was before,
toggled by each earlier bit over it. -/
def pixelAt (s : Screen) (x y : Int) (bits : List Bool) (b : Nat × Nat) : Bool :=
  s.pixel (x + b.2) (y + b.1) ^^
    decide (Odd {a ∈ bitsOver x y bits (x + b.2) (y + b.1) | 8 * a.1 + a.2 < 8 * b.1 + b.2}.card)

variable {x y : Int} {bits : List Bool}

theorem mem_setBits {b : Nat × Nat} :
    b ∈ setBits bits ↔ b.1 < bits.length / 8 ∧ b.2 < 8 ∧ bits[8 * b.1 + b.2]? = some true := by
  simp only [setBits, Finset.mem_filter, Finset.mem_product, Finset.mem_range, and_assoc]

theorem mem_bitsOver {px py : Int} {b : Nat × Nat} :
    b ∈ bitsOver x y bits px py ↔
      b ∈ setBits bits ∧ (x + b.2) % 64 = px % 64 ∧ (y + b.1) % 32 = py % 32 := by
  simp only [bitsOver, Finset.mem_filter]

theorem cell_eq_iff {px py : Int} :
    cell x y = cell px py ↔ x % 64 = px % 64 ∧ y % 32 = py % 32 := by
  simp only [cell, Fin.mk.injEq]
  omega

theorem pixel_congr (s : Screen) {px py : Int} (column : x % 64 = px % 64) (row : y % 32 = py % 32) :
    s.pixel x y = s.pixel px py := by
  simp only [pixel, cell_eq_iff.2 ⟨column, row⟩]

/-! ### The places that a draw toggles -/

def place (x y : Int) (k : Nat) : Fin 2048 :=
  cell (x + (k % 8 : Nat)) (y + (k / 8 : Nat))

def places (x y : Int) (bits : List Bool) (n : Nat) : List (Fin 2048) :=
  ((List.range n).filter fun k => bits[k]? = some true).map (place x y)

theorem places_succ (x y : Int) (bits : List Bool) (n : Nat) :
    places x y bits (n + 1) =
      places x y bits n ++ if bits[n]? = some true then [place x y n] else [] := by
  rw [places, List.range_succ, List.filter_append, List.map_append, ← places]
  by_cases set : bits[n]? = some true
  · simp [set]
  · simp [set]

theorem zipIdx_eq_map (bits : List Bool) :
    bits.zipIdx = (List.range bits.length).map fun k => (decide (bits[k]? = some true), k) := by
  refine List.ext_getElem (by simp) fun k inside _ => ?_
  rw [List.length_zipIdx] at inside
  simp [inside]

theorem spriteCells_eq_places (x y : Int) (bits : List Bool) :
    spriteCells x y bits = places x y bits (8 * (bits.length / 8)) := by
  have full : bits.length / 8 * 8 = 8 * (bits.length / 8) := Nat.mul_comm _ _
  have length : (bits.take (8 * (bits.length / 8))).length = 8 * (bits.length / 8) := by
    rw [List.length_take]
    omega
  rw [spriteCells, full, zipIdx_eq_map, length, places, List.filterMap_map,
    ← List.filterMap_eq_map, ← List.filterMap_eq_filter, List.filterMap_filterMap]
  refine List.filterMap_congr fun k among => ?_
  have inside : k < 8 * (bits.length / 8) := List.mem_range.1 among
  by_cases set : bits[k]? = some true
  · simp [Option.guard, List.getElem?_take_of_lt inside, set, place]
  · simp [Option.guard, List.getElem?_take_of_lt inside, set]

theorem count_places {n : Nat} (full : n ≤ 8 * (bits.length / 8)) (px py : Int) :
    (places x y bits n).count (cell px py) =
      {b ∈ bitsOver x y bits px py | 8 * b.1 + b.2 < n}.card := by
  have listed : (places x y bits n).count (cell px py) =
      {k ∈ Finset.range n | bits[k]? = some true ∧ place x y k = cell px py}.card := by
    rw [places, List.count_eq_countP, List.countP_map, List.countP_filter,
      List.countP_eq_length_filter]
    refine congrArg List.length (List.filter_congr fun k _ => Bool.eq_iff_iff.2 ?_)
    simp [and_comm]
  rw [listed]
  -- A position is that of one bit, by row and column.
  refine Finset.card_bij' (fun k _ => (k / 8, k % 8)) (fun b _ => 8 * b.1 + b.2) ?_ ?_ ?_ ?_
  · intro k among
    simp only [Finset.mem_filter, Finset.mem_range, place, cell_eq_iff] at among
    simp only [Finset.mem_filter, mem_bitsOver, mem_setBits, Nat.div_add_mod]
    exact ⟨⟨⟨by omega, by omega, among.2.1⟩, among.2.2⟩, among.1⟩
  · intro b among
    simp only [Finset.mem_filter, mem_bitsOver, mem_setBits] at among
    have row : (8 * b.1 + b.2) / 8 = b.1 := by omega
    have column : (8 * b.1 + b.2) % 8 = b.2 := by omega
    simp only [Finset.mem_filter, Finset.mem_range, place, cell_eq_iff, row, column]
    exact ⟨among.2, among.1.1.2.2, among.1.2⟩
  · intro k _
    exact Nat.div_add_mod k 8
  · intro b among
    simp only [Finset.mem_filter, mem_bitsOver, mem_setBits] at among
    exact Prod.ext (by dsimp only; omega) (by dsimp only; omega)

/-! ### Pixels -/

theorem pixel_draw (s : Screen) (x y : Int) (bits : List Bool) (px py : Int) :
    (s.draw x y bits).2.pixel px py =
      (s.pixel px py ^^ decide (Odd (bitsOver x y bits px py).card)) := by
  have every : {b ∈ bitsOver x y bits px py | 8 * b.1 + b.2 < 8 * (bits.length / 8)} =
      bitsOver x y bits px py := by
    refine Finset.filter_true_of_mem fun b meets => ?_
    have inside := mem_setBits.1 (mem_bitsOver.1 meets).1
    omega
  have toggled := getElem_foldl_toggle (spriteCells x y bits) (false, s.pixels) (cell px py)
  rw [spriteCells_eq_places, count_places le_rfl, every, ← spriteCells_eq_places] at toggled
  simp only [Nat.odd_iff]
  exact toggled

theorem draw_take_full (s : Screen) (x y : Int) (bits : List Bool) :
    s.draw x y (bits.take (8 * (bits.length / 8))) = s.draw x y bits := by
  have length : (bits.take (8 * (bits.length / 8))).length = 8 * (bits.length / 8) := by
    rw [List.length_take]
    omega
  have rows : 8 * (bits.length / 8) / 8 = bits.length / 8 := by omega
  have cells : spriteCells x y (bits.take (8 * (bits.length / 8))) = spriteCells x y bits := by
    rw [spriteCells, length, rows, Nat.mul_comm (bits.length / 8), List.take_take, Nat.min_self,
      spriteCells, Nat.mul_comm (bits.length / 8)]
  have some_row : 8 ≤ 8 * (bits.length / 8) ↔ 8 ≤ bits.length := by omega
  simp only [draw, cells, length, some_row]

/-! ### The collision -/

theorem foldl_toggle_places (x y : Int) (bits : List Bool) (pixels : Vector Bool 2048) (n : Nat) :
    ((places x y bits n).foldl toggle (false, pixels)).1 = true ↔
      ∃ k < n, bits[k]? = some true ∧
        ((places x y bits k).foldl toggle (false, pixels)).2[place x y k] = true := by
  induction n with
  | zero => simp [places]
  | succ n ih =>
    rw [places_succ, List.foldl_append, Nat.exists_lt_succ_right, ← ih]
    by_cases set : bits[n]? = some true
    · simp [set, toggle]
    · simp [set]

theorem getElem_foldl_places (s : Screen) {b : Nat × Nat} (member : b ∈ setBits bits) :
    ((places x y bits (8 * b.1 + b.2)).foldl toggle (false, s.pixels)).2[place x y (8 * b.1 + b.2)] =
      s.pixelAt x y bits b := by
  have inside := mem_setBits.1 member
  have row : (8 * b.1 + b.2) / 8 = b.1 := by omega
  have column : (8 * b.1 + b.2) % 8 = b.2 := by omega
  have under : place x y (8 * b.1 + b.2) = cell (x + b.2) (y + b.1) := by rw [place, row, column]
  rw [getElem_foldl_toggle]
  simp only [under]
  rw [count_places (by omega), pixelAt]
  simp only [Nat.odd_iff]
  rfl

theorem draw_collides (s : Screen) (x y : Int) (bits : List Bool) :
    (s.draw x y bits).1 = true ↔ ∃ b ∈ setBits bits, s.pixelAt x y bits b = true := by
  have walked := foldl_toggle_places x y bits s.pixels (8 * (bits.length / 8))
  rw [← spriteCells_eq_places] at walked
  refine walked.trans ⟨?_, ?_⟩
  · rintro ⟨k, inside, set, lit⟩
    have position : 8 * (k / 8) + k % 8 = k := Nat.div_add_mod k 8
    have member : (k / 8, k % 8) ∈ setBits bits :=
      mem_setBits.2 ⟨by dsimp only; omega, by dsimp only; omega, by rw [position]; exact set⟩
    refine ⟨_, member, ?_⟩
    rw [← getElem_foldl_places s member]
    simp only [position]
    exact lit
  · rintro ⟨b, member, lit⟩
    have inside := mem_setBits.1 member
    exact ⟨8 * b.1 + b.2, by omega, inside.2.2, (getElem_foldl_places s member).trans lit⟩

section Short

-- A sprite that is not taller than the screen has at most one bit over each pixel.
variable (short : bits.length / 8 ≤ 32)

include short

theorem bitsOver_of_mem {b : Nat × Nat} (member : b ∈ setBits bits) :
    bitsOver x y bits (x + b.2) (y + b.1) = {b} := by
  ext a
  rw [mem_bitsOver, Finset.mem_singleton]
  constructor
  · rintro ⟨set, column, row⟩
    have first := mem_setBits.1 set
    have second := mem_setBits.1 member
    exact Prod.ext (by omega) (by omega)
  · rintro rfl
    exact ⟨member, rfl, rfl⟩

theorem pixelAt_of_mem (s : Screen) {b : Nat × Nat} (member : b ∈ setBits bits) :
    s.pixelAt x y bits b = s.pixel (x + b.2) (y + b.1) := by
  have first : {a ∈ ({b} : Finset (Nat × Nat)) | 8 * a.1 + a.2 < 8 * b.1 + b.2} = ∅ := by
    simp [Finset.filter_singleton]
  rw [pixelAt, bitsOver_of_mem short member, first]
  simp

theorem draw_collides_of_short (s : Screen) :
    (s.draw x y bits).1 = true ↔ ∃ b ∈ setBits bits, s.pixel (x + b.2) (y + b.1) = true := by
  rw [draw_collides]
  refine exists_congr fun b => and_congr_right fun member => ?_
  rw [pixelAt_of_mem short s member]

theorem draw_collides_iff_unset (s : Screen) :
    (s.draw x y bits).1 = true ↔
      ∃ px py, s.pixel px py = true ∧ (s.draw x y bits).2.pixel px py = false := by
  rw [draw_collides_of_short short]
  constructor
  · rintro ⟨b, member, lit⟩
    refine ⟨x + b.2, y + b.1, lit, ?_⟩
    rw [pixel_draw, bitsOver_of_mem short member, lit]
    simp
  · rintro ⟨px, py, lit, unset⟩
    rw [pixel_draw, lit] at unset
    have odd : (bitsOver x y bits px py).card % 2 = 1 := by simpa [Nat.odd_iff] using unset
    obtain ⟨b, meets⟩ := Finset.card_pos.1 (show 0 < (bitsOver x y bits px py).card by omega)
    have under := mem_bitsOver.1 meets
    exact ⟨b, under.1, (s.pixel_congr under.2.1 under.2.2).trans lit⟩

end Short

/-- Drawing a sprite toggles each pixel as often as bits lie over it, and its collision tells of the
set pixels that were met; that is, unless pixels were met more than once, of those it unset. -/
theorem draw_wraps (s : Screen) (x y : Int) (bits : List Bool) :
    (∀ px py, (s.draw x y bits).2.pixel px py =
      (s.pixel px py ^^ decide (Odd (bitsOver x y bits px py).card))) ∧
    s.draw x y (bits.take (8 * (bits.length / 8))) = s.draw x y bits ∧
    ((s.draw x y bits).1 = true ↔ ∃ b ∈ setBits bits, s.pixelAt x y bits b = true) ∧
    (bits.length / 8 ≤ 32 → ((s.draw x y bits).1 = true ↔
      ∃ px py, s.pixel px py = true ∧ (s.draw x y bits).2.pixel px py = false)) :=
  ⟨pixel_draw s x y bits, draw_take_full s x y bits, draw_collides s x y bits,
    fun short => draw_collides_iff_unset short s⟩

def cornered : Screen :=
  (blank.draw 62 0 (rowBits 0xF0)).2

theorem draw_wraps_corners : (rowBits 0x30).length / 8 ≤ 32 ∧
    ∃ px py, cornered.pixel px py = true ∧
      (cornered.draw (-2) 32 (rowBits 0x30)).2.pixel px py = false := by
  have short : (rowBits 0x30).length / 8 ≤ 32 := by decide
  have collides : (cornered.draw (-2) 32 (rowBits 0x30)).1 = true := by decide +kernel
  exact ⟨short, ((draw_wraps cornered (-2) 32 (rowBits 0x30)).2.2.2 short).1 collides⟩

end Chip8.Screen
