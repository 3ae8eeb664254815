import Mathlib.Algebra.BigOperators.Ring.Finset
import Mathlib.Algebra.Ring.Parity
import Chip8.Proofs.MemoryTraffic
import Chip8.Proofs.SpriteDrawing

/-! Several sprites on one screen.

Drawing sprites flips each pixel as often as bits lie over it in all of them together, so the order
in which they are drawn does not matter and sprites drawn an even number of times cancel out. A
program that draws what it drew before erases it.
-/

set_option autoImplicit false

namespace Chip8

structure Sprite where
  x : Int
  y : Int
  bits : List Bool
  deriving DecidableEq, Repr

namespace Sprite

def cells (d : Sprite) : List (Fin 2048) :=
  Screen.spriteCells d.x d.y d.bits

def wrapped (d : Sprite) : Sprite :=
  ⟨d.x % 64, d.y % 32, d.bits⟩

theorem cells_wrapped (d : Sprite) : d.wrapped.cells = d.cells := by
  have place : Screen.place (d.x % 64) (d.y % 32) = Screen.place d.x d.y := by
    funext k
    simp only [Screen.place, Screen.cell_eq_iff, Int.emod_add_emod, and_self]
  simp only [cells, wrapped, Screen.spriteCells_eq_places, Screen.places, place]

theorem flatMap_cells_wrapped (sprites : List Sprite) :
    (sprites.map wrapped).flatMap cells = sprites.flatMap cells := by
  rw [List.flatMap_map]
  simp only [cells_wrapped]

end Sprite

namespace Screen

def drawAll (s : Screen) (sprites : List Sprite) : Screen :=
  sprites.foldl (fun s d => (s.draw d.x d.y d.bits).2) s

def toggled (pixels : Vector Bool 2048) (cells : List (Fin 2048)) : Vector Bool 2048 :=
  (cells.foldl toggle (false, pixels)).2

theorem get_toggled (pixels : Vector Bool 2048) (cells : List (Fin 2048)) (c : Fin 2048) :
    (toggled pixels cells).get c = (pixels.get c ^^ decide (Odd (cells.count c))) := by
  simp only [Nat.odd_iff]
  exact getElem_foldl_toggle cells (false, pixels) c

theorem toggled_congr {pixels : Vector Bool 2048} {cells others : List (Fin 2048)}
    (parity : ∀ c, Odd (cells.count c) ↔ Odd (others.count c)) :
    toggled pixels cells = toggled pixels others := by
  refine Vector.ext fun k inside => ?_
  have here := get_toggled pixels cells ⟨k, inside⟩
  rw [decide_eq_decide.2 (parity _), ← get_toggled] at here
  exact here

theorem decide_odd_add (a b : Nat) : decide (Odd (a + b)) = (decide (Odd a) ^^ decide (Odd b)) := by
  by_cases first : Odd a <;> by_cases second : Odd b <;>
    simp [Nat.odd_add, ← Nat.not_odd_iff_even, first, second]

theorem toggled_append (pixels : Vector Bool 2048) (cells others : List (Fin 2048)) :
    toggled pixels (cells ++ others) = toggled (toggled pixels cells) others := by
  refine Vector.ext fun k inside => ?_
  have here := get_toggled pixels (cells ++ others) ⟨k, inside⟩
  have inTurn := get_toggled (toggled pixels cells) others ⟨k, inside⟩
  rw [get_toggled pixels cells, Bool.xor_assoc] at inTurn
  refine here.trans (Eq.trans ?_ inTurn.symm)
  rw [List.count_append, decide_odd_add]

theorem pixels_drawAll (s : Screen) (sprites : List Sprite) :
    (s.drawAll sprites).pixels = toggled s.pixels (sprites.flatMap Sprite.cells) := by
  induction sprites generalizing s with
  | nil => rfl
  | cons d sprites ih =>
    rw [List.flatMap_cons, toggled_append]
    exact ih (s.draw d.x d.y d.bits).2

theorem drawAll_perm (s : Screen) {sprites others : List Sprite} (perm : sprites.Perm others) :
    (s.drawAll sprites).pixels = (s.drawAll others).pixels := by
  rw [pixels_drawAll, pixels_drawAll]
  refine toggled_congr fun c => ?_
  rw [(perm.flatMap_right Sprite.cells).count_eq c]

theorem drawAll_even (s : Screen) {sprites : List Sprite}
    (even : ∀ d ∈ sprites, Even ((sprites.map Sprite.wrapped).count d.wrapped)) :
    (s.drawAll sprites).pixels = s.pixels := by
  rw [pixels_drawAll, ← Sprite.flatMap_cells_wrapped]
  have cancel (c : Fin 2048) :
      Even (((sprites.map Sprite.wrapped).flatMap Sprite.cells).count c) := by
    rw [List.count_flatMap, Finset.sum_list_map_count, even_iff_two_dvd]
    refine Finset.dvd_sum fun d member => ?_
    obtain ⟨first, among, rfl⟩ := List.mem_map.1 (List.mem_toFinset.1 member)
    exact (even first among).two_dvd.mul_right _
  have none (c : Fin 2048) : ¬ Odd (([] : List (Fin 2048)).count c) := by simp
  exact toggled_congr fun c => iff_of_false (Nat.not_odd_iff_even.2 (cancel c)) (none c)

theorem draw_twice {s t : Screen} {x y : Int} {bits : List Bool}
    (same : t.pixels = (s.draw x y bits).2.pixels) : (t.draw x y bits).2.pixels = s.pixels := by
  have again : (t.draw x y bits).2.pixels = (s.drawAll [⟨x, y, bits⟩, ⟨x, y, bits⟩]).pixels := by
    have drawn (u : Screen) : (u.draw x y bits).2.pixels = toggled u.pixels (spriteCells x y bits) :=
      rfl
    simp only [drawAll, List.foldl_cons, List.foldl_nil, drawn, same]
  rw [again]
  refine drawAll_even s fun d member => ?_
  have one : d = ⟨x, y, bits⟩ := by simpa using member
  simp [one]

/-- A sprite that is drawn where it was just drawn collides if it lies over a pixel that was unset
before. -/
theorem draw_twice_collides {s t : Screen} {x y : Int} {bits : List Bool}
    (short : bits.length / 8 ≤ 32) (same : t.pixels = (s.draw x y bits).2.pixels) :
    (t.draw x y bits).1 = true ↔ ∃ b ∈ setBits bits, s.pixel (x + b.2) (y + b.1) = false := by
  rw [draw_collides_of_short short]
  refine exists_congr fun b => and_congr_right fun member => ?_
  have drawn : t.pixel (x + b.2) (y + b.1) = (s.draw x y bits).2.pixel (x + b.2) (y + b.1) := by
    simp only [pixel, same]
  rw [drawn, pixel_draw, bitsOver_of_mem short member]
  simp

/-! ### Sprites in memory -/

theorem getElem?_flatMap_rowBits (data : List UInt8) (row : Nat) {column : Nat}
    (inside : column < 8) :
    (data.flatMap rowBits)[8 * row + column]? =
      data[row]?.map fun b => b.toNat.testBit (7 - column) := by
  induction data generalizing row with
  | nil => simp
  | cons b data ih =>
    rw [List.flatMap_cons]
    cases row with
    | zero =>
      have descending : ∀ column < 8, [7, 6, 5, 4, 3, 2, 1, 0][column]? = some (7 - column) := by
        decide
      rw [List.getElem?_append_left (by rw [length_rowBits]; omega), Nat.mul_zero, Nat.zero_add,
        rowBits, List.getElem?_map, descending column inside, List.getElem?_cons_zero]
      rfl
    | succ row =>
      have later : 8 * (row + 1) + column - (rowBits b).length = 8 * row + column := by
        rw [length_rowBits]
        omega
      rw [List.getElem?_append_right (by rw [length_rowBits]; omega), later, ih,
        List.getElem?_cons_succ]

theorem length_flatMap_rowBits (data : List UInt8) :
    (data.flatMap rowBits).length = 8 * data.length := by
  simp [List.length_flatMap, Nat.mul_comm]

theorem mem_setBits_flatMap {data : List UInt8} {b : Nat × Nat} :
    b ∈ setBits (data.flatMap rowBits) ↔
      b.2 < 8 ∧ ∃ value, data[b.1]? = some value ∧ value.toNat.testBit (7 - b.2) = true := by
  rw [mem_setBits, length_flatMap_rowBits, Nat.mul_div_cancel_left _ (by decide)]
  constructor
  · rintro ⟨-, column, set⟩
    rw [getElem?_flatMap_rowBits data b.1 column, Option.map_eq_some_iff] at set
    exact ⟨column, set⟩
  · rintro ⟨column, set⟩
    rw [← Option.map_eq_some_iff, ← getElem?_flatMap_rowBits data b.1 column] at set
    have inside := (List.getElem?_eq_some_iff.1 set).1
    rw [length_flatMap_rowBits] at inside
    exact ⟨by omega, column, set⟩

end Screen

namespace Machine

variable {size : Nat}

/-- The bytes of a sprite, which is kept from the index on. -/
def spriteRows (m : Machine size) (rows : Nat) : List UInt8 :=
  (List.range rows).map fun k => m.memory.byteAt (m.processor.index.toNat + k)

structure SameSprite (x y : Register) (rows : Fin 16) (m n : Machine size) : Prop where
  column : n.processor.get x = m.processor.get x
  row : n.processor.get y = m.processor.get y
  index : n.processor.index = m.processor.index
  bytes : ∀ k < rows.val, n.memory.byteAt (m.processor.index.toNat + k) =
    m.memory.byteAt (m.processor.index.toNat + k)

variable {x y : Register} {rows : Fin 16} {m n : Machine size} {stores : List Store}

theorem SameSprite.trans {l : Machine size} (first : SameSprite x y rows l m)
    (second : SameSprite x y rows m n) : SameSprite x y rows l n where
  column := second.column.trans first.column
  row := second.row.trans first.row
  index := second.index.trans first.index
  bytes k inside := by
    have later := second.bytes k inside
    rw [first.index] at later
    exact later.trans (first.bytes k inside)

theorem SameSprite.spriteRows (same : SameSprite x y rows m n) :
    n.spriteRows rows.val = m.spriteRows rows.val := by
  rw [Machine.spriteRows, Machine.spriteRows, same.index]
  exact List.map_congr_left fun k among => same.bytes k (List.mem_range.1 among)

/-- What a draw instruction leaves of the processor and the screen. -/
theorem draw_leaves (done : m.execute (.draw x y rows) = .ok (n, stores)) :
    let drawn := m.screen.draw (m.processor.get x).toNat (m.processor.get y).toNat
      ((m.spriteRows rows.val).flatMap Screen.rowBits)
    n.processor = m.processor.setFlag drawn.1 ∧ n.screen = drawn.2 := by
  obtain ⟨p, memory, screen, keypad, random⟩ := m
  simp only [execute, draw] at done
  split at done
  · cases done
  · next data memory' read =>
    have rowsRead : data = spriteRows ⟨p, memory, screen, keypad, random⟩ rows.val := by
      rw [Memory.readRange_data read, spriteRows, List.range'_eq_map_range, List.map_map]
      rfl
    cases done
    rw [rowsRead]
    exact ⟨rfl, rfl⟩

theorem sameSprite_of_draw (column : x ≠ .flag) (row : y ≠ .flag)
    (done : m.execute (.draw x y rows) = .ok (n, stores)) : SameSprite x y rows m n := by
  have left := (draw_leaves done).1
  refine ⟨?_, ?_, ?_, fun k _ => ?_⟩
  · rw [left, Processor.setFlag, Processor.get_set_of_ne _ _ column]
  · rw [left, Processor.setFlag, Processor.get_set_of_ne _ _ row]
  · rw [left]
    rfl
  · have none : (Instruction.draw x y rows).stored m.processor = [] := rfl
    rw [(execute_ok done).1, none, byteAt_transferred, Memory.store_nil]

theorem mem_setBits_spriteRows {b : Nat × Nat} :
    b ∈ Screen.setBits ((m.spriteRows rows.val).flatMap Screen.rowBits) ↔
      b.1 < rows.val ∧ b.2 < 8 ∧
        (m.memory.byteAt (m.processor.index.toNat + b.1)).toNat.testBit (7 - b.2) = true := by
  rw [Screen.mem_setBits_flatMap, spriteRows]
  by_cases inside : b.1 < rows.val
  · simp [inside]
  · simp [inside]

/-- A draw that is repeated erases what it drew; its collision then tells of the pixels that the
first one set. -/
theorem draw_again {m' n' : Machine size} {stores' : List Store} (column : x ≠ .flag)
    (row : y ≠ .flag) (first : m.execute (.draw x y rows) = .ok (m', stores))
    (same : SameSprite x y rows m' n) (pixels : n.screen.pixels = m'.screen.pixels)
    (second : n.execute (.draw x y rows) = .ok (n', stores')) :
    n'.screen.pixels = m.screen.pixels ∧
      (n'.processor.get .flag = 1 ↔ ∃ r < rows.val, ∃ c < 8,
        (m.memory.byteAt (m.processor.index.toNat + r)).toNat.testBit (7 - c) = true ∧
          m.screen.pixel ((m.processor.get x).toNat + c) ((m.processor.get y).toNat + r) =
            false) := by
  -- The first drawing has left the sprite and its place alone, so the second draws the same bits.
  have kept := (sameSprite_of_draw column row first).trans same
  obtain ⟨flag, screen⟩ := draw_leaves second
  rw [kept.column, kept.row, kept.spriteRows] at flag screen
  rw [(draw_leaves first).2] at pixels
  have length : (m.spriteRows rows.val).length = rows.val := by simp [spriteRows]
  have short : ((m.spriteRows rows.val).flatMap Screen.rowBits).length / 8 ≤ 32 := by
    rw [Screen.length_flatMap_rowBits, length]
    omega
  have collides := Screen.draw_twice_collides short pixels
  refine ⟨by rw [screen, Screen.draw_twice pixels], ?_⟩
  have raised : n'.processor.get .flag = 1 ↔
      ((n.screen.draw (m.processor.get x).toNat (m.processor.get y).toNat
        ((m.spriteRows rows.val).flatMap Screen.rowBits)).1 = true) := by
    rw [flag, Processor.setFlag, Processor.get_set_self]
    split
    · next on => exact iff_of_true rfl on
    · next off => exact iff_of_false (by decide) off
  rw [raised, collides]
  constructor
  · rintro ⟨⟨r, c⟩, member, unset⟩
    obtain ⟨inside, width, set⟩ := mem_setBits_spriteRows.1 member
    exact ⟨r, inside, c, width, set, unset⟩
  · rintro ⟨r, inside, c, width, set, unset⟩
    exact ⟨(r, c), mem_setBits_spriteRows.2 ⟨inside, width, set⟩, unset⟩

end Machine

/-- Sprites may be drawn in any order and cancel out in pairs; and a draw instruction that is
repeated erases what it drew. -/
theorem sprites_cancel :
    (∀ (s : Screen) {sprites others : List Sprite}, sprites.Perm others →
      (s.drawAll sprites).pixels = (s.drawAll others).pixels) ∧
    (∀ (s : Screen) {sprites : List Sprite},
      (∀ d ∈ sprites, Even ((sprites.map Sprite.wrapped).count d.wrapped)) →
        (s.drawAll sprites).pixels = s.pixels) ∧
    ∀ {size : Nat} {x y : Register} {rows : Fin 16} {m m' n n' : Machine size}
      {stores stores' : List Store}, x ≠ .flag → y ≠ .flag →
      m.execute (.draw x y rows) = .ok (m', stores) → m'.SameSprite x y rows n →
      n.screen.pixels = m'.screen.pixels → n.execute (.draw x y rows) = .ok (n', stores') →
        n'.screen.pixels = m.screen.pixels ∧
          (n'.processor.get .flag = 1 ↔ ∃ r < rows.val, ∃ c < 8,
            (m.memory.byteAt (m.processor.index.toNat + r)).toNat.testBit (7 - c) = true ∧
              m.screen.pixel ((m.processor.get x).toNat + c) ((m.processor.get y).toNat + r) =
                false) :=
  ⟨fun s _ _ => s.drawAll_perm, fun s _ => s.drawAll_even, Machine.draw_again⟩

def glyphRow : Machine 2 where
  processor := {}
  memory := ⟨#v[0xF0, 0x90], none⟩
  screen := .blank
  keypad := .released
  random := ⟨.replicate 624 0, 0⟩

def overlaid : List Sprite :=
  [⟨62, 0, Screen.rowBits 0xF0⟩, ⟨-2, 32, Screen.rowBits 0xF0⟩]

theorem sprites_cancel_glyphRow :
    overlaid.Perm overlaid.reverse ∧
    (Screen.blank.drawAll overlaid).pixels = (Screen.blank.drawAll overlaid.reverse).pixels ∧
    (∀ d ∈ overlaid, Even ((overlaid.map Sprite.wrapped).count d.wrapped)) ∧
    (Screen.blank.drawAll overlaid).pixels = Screen.blank.pixels ∧
    ∃ m n : Machine 2, glyphRow.execute (.draw 0 1 2) = .ok (m, []) ∧
      m.execute (.draw 0 1 2) = .ok (n, []) ∧ n.screen.pixels = glyphRow.screen.pixels ∧
        n.processor.get .flag = 1 := by
  have reversed : overlaid.Perm overlaid.reverse := overlaid.reverse_perm.symm
  have even : ∀ d ∈ overlaid, Even ((overlaid.map Sprite.wrapped).count d.wrapped) := by decide
  obtain ⟨m, first, n, second⟩ : ∃ m, glyphRow.execute (.draw 0 1 2) = .ok (m, []) ∧
      ∃ n, m.execute (.draw 0 1 2) = .ok (n, []) := ⟨_, rfl, _, rfl⟩
  have cancelled := sprites_cancel.2.2 (by decide) (by decide) first ⟨rfl, rfl, rfl, fun _ _ => rfl⟩
    rfl second
  exact ⟨reversed, sprites_cancel.1 _ reversed, even, sprites_cancel.2.1 _ even, m, n, first, second,
    cancelled.1, cancelled.2.2 ⟨0, by decide, 0, by decide, by decide, by decide +kernel⟩⟩

end Chip8
