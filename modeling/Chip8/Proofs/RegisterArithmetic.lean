import Chip8.Proofs.InstructionTable

/-! What computations on registers come to, whichever registers they name.

The operands are read before anything is written, and the flag is written before the result. So the
result is that of the old values and stands in its register, even if that is the flag register or
both operands are one register. Where the result does not go there, the flag register tells of the
computation, if it is one that sets the flag.
-/

set_option autoImplicit false

namespace Chip8

variable {size : Nat} {w : Word} {p : Processor}

/-! ### Computations -/

/-- A computation with the words that stand for it. Its operands `a` and `b` are register `x` and
one more. -/
structure Computation where
  family : Nat
  rest : Rest
  -- Where the result goes.
  target : Word → Register := Word.x
  operand : Word → Processor → UInt8 := fun w p => p.get w.y
  result : (a b : Nat) → Nat
  -- What the flag tells, if the computation sets it.
  flag : Option ((a b : Nat) → Nat) := none

structure Computation.Covers (c : Computation) (w : Word) : Prop where
  family : w.toNat / 4096 = c.family
  rest : c.rest.Covers w

def registerComputations : List Computation := [
  { family := 0x8, rest := .nibble 0x0, result := fun _ b => b },
  { family := 0x8, rest := .nibble 0x1, result := fun a b => a ||| b },
  { family := 0x8, rest := .nibble 0x2, result := fun a b => a &&& b },
  { family := 0x8, rest := .nibble 0x3, result := fun a b => a ^^^ b },
  { family := 0x8, rest := .nibble 0x4
    result := fun a b => (a + b) % 256
    flag := some fun a b => (decide (a + b > 255)).toNat },
  { family := 0x8, rest := .nibble 0x5
    result := fun a b => ((a - b : Int) % 256).toNat
    flag := some fun a b => (decide (a > b)).toNat },
  { family := 0x8, rest := .nibble 0x6
    result := fun a _ => a / 2
    flag := some fun a _ => a % 2 },
  { family := 0x8, rest := .nibble 0x7, target := Word.y
    result := fun a b => ((b - a : Int) % 256).toNat
    flag := some fun a b => (decide (b > a)).toNat },
  { family := 0x8, rest := .nibble 0xE
    result := fun a _ => 2 * a % 256
    flag := some fun a _ => (decide (a ≥ 128)).toNat }]

def byteComputations : List Computation := [
  { family := 0x6, rest := .any, operand := fun w _ => w.byte, result := fun _ b => b },
  { family := 0x7, rest := .any, operand := fun w _ => w.byte, result := fun a b => (a + b) % 256 }]

structure Computed (c : Computation) (w : Word) (p q : Processor) : Prop where
  result : (q.get (c.target w)).toNat = c.result (p.get w.x).toNat (c.operand w p).toNat
  flag : ∀ f ∈ c.flag, c.target w ≠ .flag →
    (q.get .flag).toNat = f (p.get w.x).toNat (c.operand w p).toNat
  registers : ∀ r, r ≠ c.target w → (r = .flag → c.flag = none) → q.get r = p.get r
  others : q = { p with v := q.v }

variable {c : Computation}

theorem computed_set (plain : c.flag = none) {value : UInt8}
    (result : value.toNat = c.result (p.get w.x).toNat (c.operand w p).toNat) :
    Computed c w p (p.set (c.target w) value) where
  result := by rw [Processor.get_set_self, result]
  flag f member := by
    rw [plain] at member
    cases member
  registers r other _ := p.get_set_of_ne value other
  others := rfl

theorem Processor.get_setFlag (p : Processor) (on : Bool) :
    ((p.setFlag on).get .flag).toNat = on.toNat := by
  rw [setFlag, get_set_self]
  cases on <;> rfl

theorem computed_setFlag_set {f : Nat → Nat → Nat} (sets : c.flag = some f) {on : Bool}
    (tells : on.toNat = f (p.get w.x).toNat (c.operand w p).toNat) {value : UInt8}
    (result : value.toNat = c.result (p.get w.x).toNat (c.operand w p).toNat) :
    Computed c w p ((p.setFlag on).set (c.target w) value) where
  result := by rw [Processor.get_set_self, result]
  flag g member elsewhere := by
    obtain rfl : f = g := by simpa [sets] using member
    rw [Processor.get_set_of_ne _ value elsewhere.symm, p.get_setFlag, tells]
  registers r other spared := by
    -- A register other than the target is spared only if it is not the flag.
    have unflagged : r ≠ .flag := fun same => by simp [sets] at spared; exact spared same
    rw [Processor.get_set_of_ne _ value other]
    exact p.get_set_of_ne _ unflagged
  others := rfl

/-! ### Bytes -/

theorem toNat_sub_byte (a b : UInt8) : (a - b).toNat = ((a.toNat - b.toNat : Int) % 256).toNat := by
  have := a.toNat_lt
  have := b.toNat_lt
  rw [UInt8.toNat_sub]
  omega

theorem toNat_half_byte (a : UInt8) : (a >>> 1).toNat = a.toNat / 2 := by
  simp [Nat.shiftRight_eq_div_pow]

theorem toNat_double_byte (a : UInt8) : (a <<< 1).toNat = 2 * a.toNat % 256 := by
  simp [Nat.shiftLeft_eq, Nat.mul_comm]

/-! ### Executing -/

def Word.Computes (w : Word) (m : Machine size) (q : Processor) : Prop :=
  ∃ i, Instruction.decode w = some i ∧ m.execute i = .ok ({ m with processor := q }, [])

theorem computes_of_row {row : Row} (member : row ∈ instructionTable) (covers : row.Covers w)
    {m : Machine size} {q : Processor}
    (done : m.execute (row.operation w) = .ok ({ m with processor := q }, [])) : w.Computes m q :=
  ⟨_, Instruction.decode_of_row member covers, done⟩

theorem computes_register {last : Nat} (operation : Word → Instruction)
    (member : ⟨0x8, .nibble last, operation⟩ ∈ arithmeticRows) (family : w.toNat / 4096 = 0x8)
    (rest : w.toNat % 16 = last) {m : Machine size} {q : Processor}
    (done : m.execute (operation w) = .ok ({ m with processor := q }, [])) : w.Computes m q := by
  have listed : (⟨0x8, .nibble last, operation⟩ : Row) ∈ instructionTable := by
    simp [instructionTable, member]
  exact computes_of_row listed ⟨family, rest⟩ done

theorem registerComputations_computed (member : c ∈ registerComputations) (covers : c.Covers w)
    (m : Machine size) : ∃ q, w.Computes m q ∧ Computed c w m.processor q := by
  obtain ⟨family, rest⟩ := covers
  have parity (a : UInt8) : (decide (a.toNat % 2 = 1)).toNat = a.toNat % 2 := by
    rcases Nat.mod_two_eq_zero_or_one a.toNat with even | odd
    · simp [even]
    · simp [odd]
  simp only [registerComputations, List.mem_cons, List.not_mem_nil, or_false] at member
  -- The target may be the flag register: the result is written last, over what the flag told.
  rcases member with rfl | rfl | rfl | rfl | rfl | rfl | rfl | rfl | rfl
  · exact ⟨_, computes_register (fun w => .copy w.x w.y) (by simp [arithmeticRows]) family rest rfl,
      computed_set rfl rfl⟩
  · exact ⟨_, computes_register (fun w => .or w.x w.y) (by simp [arithmeticRows]) family rest rfl,
      computed_set rfl (UInt8.toNat_or _ _)⟩
  · exact ⟨_, computes_register (fun w => .and w.x w.y) (by simp [arithmeticRows]) family rest rfl,
      computed_set rfl (UInt8.toNat_and _ _)⟩
  · exact ⟨_, computes_register (fun w => .xor w.x w.y) (by simp [arithmeticRows]) family rest rfl,
      computed_set rfl (UInt8.toNat_xor _ _)⟩
  · exact ⟨_, computes_register (fun w => .add w.x w.y) (by simp [arithmeticRows]) family rest rfl,
      computed_setFlag_set rfl rfl (UInt8.toNat_add _ _)⟩
  · exact ⟨_, computes_register (fun w => .subtract w.x w.y) (by simp [arithmeticRows]) family rest
      rfl, computed_setFlag_set rfl rfl (toNat_sub_byte _ _)⟩
  · exact ⟨_, computes_register (fun w => .shiftRight w.x) (by simp [arithmeticRows]) family rest rfl,
      computed_setFlag_set rfl (parity _) (toNat_half_byte _)⟩
  · exact ⟨_, computes_register (fun w => .subtractFrom w.x w.y) (by simp [arithmeticRows]) family
      rest rfl, computed_setFlag_set rfl rfl (toNat_sub_byte _ _)⟩
  · exact ⟨_, computes_register (fun w => .shiftLeft w.x) (by simp [arithmeticRows]) family rest rfl,
      computed_setFlag_set rfl rfl (toNat_double_byte _)⟩

theorem byteComputations_computed (member : c ∈ byteComputations) (covers : c.Covers w)
    (m : Machine size) : ∃ q, w.Computes m q ∧ Computed c w m.processor q := by
  obtain ⟨family, rest⟩ := covers
  simp only [byteComputations, List.mem_cons, List.not_mem_nil, or_false] at member
  rcases member with rfl | rfl
  · have row : ⟨0x6, .any, fun w => .setByte w.x w.byte⟩ ∈ instructionTable := by
      simp [instructionTable, familyRows]
    exact ⟨_, computes_of_row row ⟨family, rest⟩ rfl, computed_set rfl rfl⟩
  · have row : ⟨0x7, .any, fun w => .addByte w.x w.byte⟩ ∈ instructionTable := by
      simp [instructionTable, familyRows]
    exact ⟨_, computes_of_row row ⟨family, rest⟩ rfl, computed_set rfl (UInt8.toNat_add _ _)⟩

structure IndexAdded (x : Register) (p q : Processor) : Prop where
  index : q.index.toNat = (p.index.toNat + (p.get x).toNat) % 65536
  flag : (q.get .flag).toNat = (decide (p.index.toNat + (p.get x).toNat > 65535)).toNat
  registers : ∀ r, r ≠ .flag → q.get r = p.get r
  others : q = { p with v := q.v, index := q.index }

theorem Processor.indexAdded (p : Processor) (x : Register) : IndexAdded x p (p.addIndex x) where
  index := UInt16.toNat_ofNat'
  flag := p.get_setFlag _
  registers _ other := p.get_set_of_ne _ other
  others := rfl

/-- Each computation leaves its result, and what the flag tells, of the registers as they were,
whichever of them it names and even if one of them is the flag. -/
theorem computes_under_aliasing (m : Machine size) :
    (∀ c ∈ registerComputations ++ byteComputations, ∀ w, c.Covers w →
      ∃ q, w.Computes m q ∧ Computed c w m.processor q) ∧
    ∀ w : Word, w.toNat / 4096 = 0xF → w.toNat % 256 = 0x1E →
      ∃ q, w.Computes m q ∧ IndexAdded w.x m.processor q := by
  refine ⟨fun c member w covers => ?_, fun w family rest => ?_⟩
  · rcases List.mem_append.1 member with member | member
    · exact registerComputations_computed member covers m
    · exact byteComputations_computed member covers m
  · have row : ⟨0xF, .byte 0x1E, fun w => .addIndex w.x⟩ ∈ instructionTable := by
      simp [instructionTable, transferRows]
    exact ⟨_, computes_of_row row ⟨family, rest⟩ rfl, m.processor.indexAdded w.x⟩

def flagOperand : Machine 0 where
  processor := Processor.set { index := 0xFFFF } .flag 9
  memory := ⟨#v[], none⟩
  screen := .blank
  keypad := .released
  random := ⟨.replicate 624 0, 0⟩

/-- The flag register doubled, and added to the index. -/
theorem computes_under_aliasing_flag :
    (∃ q, Word.Computes 0x8FF4 flagOperand q ∧ (q.get .flag).toNat = 18) ∧
      ∃ q, Word.Computes 0xFF1E flagOperand q ∧ q.index.toNat = 8 ∧ (q.get .flag).toNat = 1 := by
  obtain ⟨computes, adds⟩ := computes_under_aliasing flagOperand
  obtain ⟨q, doubled, computed⟩ := computes registerComputations[4]
    (List.mem_append_left _ (List.getElem_mem _)) 0x8FF4 ⟨by decide, by decide⟩
  obtain ⟨r, added, sum⟩ := adds 0xFF1E (by decide) (by decide)
  exact ⟨⟨q, doubled, computed.result⟩, r, added, sum.index, sum.flag⟩

end Chip8
