import Chip8.Listing
import Chip8.Proofs.Execution

/-! The instruction table, and what is accepted beside it.

A row of the table covers the words of a family whose other bits are of some form, and tells the
operation of each of them. Words that a row covers are decoded, executed and listed as the row has
it. All other words are refused, except for those of family 0 that end like the clearing of the
screen or like a return: since decoding looks at their low byte alone, they are taken for one.
-/

set_option autoImplicit false

namespace Chip8

variable {σ : Type} {size : Nat} {w : Word} {i : Instruction}

/-! ### Rows -/

inductive Rest where
  | any
  | nibble (last : Nat)
  | byte (low : Nat)
  | address (low : Nat)

def Rest.Covers (w : Word) : Rest → Prop
  | any => True
  | nibble last => w.toNat % 16 = last
  | byte low => w.toNat % 256 = low
  | address low => w.toNat % 4096 = low

instance (w : Word) : (rest : Rest) → Decidable (rest.Covers w)
  | .any => inferInstanceAs (Decidable True)
  | .nibble last => inferInstanceAs (Decidable (w.toNat % 16 = last))
  | .byte low => inferInstanceAs (Decidable (w.toNat % 256 = low))
  | .address low => inferInstanceAs (Decidable (w.toNat % 4096 = low))

structure Row where
  family : Nat
  rest : Rest
  operation : Word → Instruction

structure Row.Covers (row : Row) (w : Word) : Prop where
  family : w.toNat / 4096 = row.family
  rest : row.rest.Covers w

instance (row : Row) (w : Word) : Decidable (row.Covers w) :=
  decidable_of_iff (w.toNat / 4096 = row.family ∧ row.rest.Covers w)
    ⟨fun ⟨family, rest⟩ => ⟨family, rest⟩, fun ⟨family, rest⟩ => ⟨family, rest⟩⟩

/-! ### The table -/

def systemRows : List Row := [
  ⟨0x0, .byte 0x00, fun w => .machineCall w.address⟩,
  ⟨0x0, .address 0x0E0, fun _ => .clear⟩,
  ⟨0x0, .address 0x0EE, fun _ => .ret⟩]

def familyRows : List Row := [
  ⟨0x1, .any, fun w => .jump w.address⟩,
  ⟨0x2, .any, fun w => .call w.address⟩,
  ⟨0x3, .any, fun w => .skipIfByte w.x w.byte⟩,
  ⟨0x4, .any, fun w => .skipUnlessByte w.x w.byte⟩,
  ⟨0x5, .any, fun w => .skipIfSame w.x w.y⟩,
  ⟨0x6, .any, fun w => .setByte w.x w.byte⟩,
  ⟨0x7, .any, fun w => .addByte w.x w.byte⟩,
  ⟨0x9, .any, fun w => .skipUnlessSame w.x w.y⟩,
  ⟨0xA, .any, fun w => .setIndex w.address⟩,
  ⟨0xB, .any, fun w => .jumpFrom w.address⟩,
  ⟨0xC, .any, fun w => .random w.x w.byte⟩,
  ⟨0xD, .any, fun w => .draw w.x w.y w.nibble⟩]

def arithmeticRows : List Row := [
  ⟨0x8, .nibble 0x0, fun w => .copy w.x w.y⟩,
  ⟨0x8, .nibble 0x1, fun w => .or w.x w.y⟩,
  ⟨0x8, .nibble 0x2, fun w => .and w.x w.y⟩,
  ⟨0x8, .nibble 0x3, fun w => .xor w.x w.y⟩,
  ⟨0x8, .nibble 0x4, fun w => .add w.x w.y⟩,
  ⟨0x8, .nibble 0x5, fun w => .subtract w.x w.y⟩,
  ⟨0x8, .nibble 0x6, fun w => .shiftRight w.x⟩,
  ⟨0x8, .nibble 0x7, fun w => .subtractFrom w.x w.y⟩,
  ⟨0x8, .nibble 0xE, fun w => .shiftLeft w.x⟩]

def keyRows : List Row := [
  ⟨0xE, .byte 0x9E, fun w => .skipIfDown w.x⟩,
  ⟨0xE, .byte 0xA1, fun w => .skipIfUp w.x⟩]

def transferRows : List Row := [
  ⟨0xF, .byte 0x07, fun w => .readDelay w.x⟩,
  ⟨0xF, .byte 0x0A, fun w => .awaitKey w.x⟩,
  ⟨0xF, .byte 0x15, fun w => .setDelay w.x⟩,
  ⟨0xF, .byte 0x18, fun w => .setSound w.x⟩,
  ⟨0xF, .byte 0x1E, fun w => .addIndex w.x⟩,
  ⟨0xF, .byte 0x29, fun w => .indexGlyph w.x⟩,
  ⟨0xF, .byte 0x33, fun w => .storeDecimal w.x⟩,
  ⟨0xF, .byte 0x55, fun w => .storeRegisters w.x⟩,
  ⟨0xF, .byte 0x65, fun w => .loadRegisters w.x⟩]

def instructionTable : List Row :=
  systemRows ++ familyRows ++ arithmeticRows ++ keyRows ++ transferRows

namespace Word

def IsListed (w : Word) : Prop :=
  ∃ row ∈ instructionTable, row.Covers w

instance (w : Word) : Decidable w.IsListed :=
  inferInstanceAs (Decidable (∃ row ∈ instructionTable, row.Covers w))

/-- The word is of family 0 and has the low byte of the word 00E0 or 00EE, but is another word. -/
def IsStray (w : Word) (low : Nat) : Prop :=
  0x100 ≤ w.toNat ∧ w.toNat < 0x1000 ∧ w.toNat % 256 = low

instance (w : Word) (low : Nat) : Decidable (w.IsStray low) :=
  inferInstanceAs (Decidable (_ ∧ _ ∧ _))

/-- No row covers the word, and it is not taken for that of a row. -/
structure IsUnknown (w : Word) : Prop where
  unlisted : ¬ w.IsListed
  notClear : ¬ w.IsStray 0xE0
  notReturn : ¬ w.IsStray 0xEE

theorem toNat_byte (w : Word) : w.byte.toNat = w.toNat % 256 := by
  rw [byte, UInt8.toNat_ofNat']
  omega

end Word

/-! ### Decoding -/

def Gives (rows : List Row) (w : Word) (i : Instruction) : Prop :=
  ∃ row ∈ rows, row.Covers w ∧ row.operation w = i

theorem gives_append {first rest : List Row} :
    Gives (first ++ rest) w i ↔ Gives first w i ∨ Gives rest w i := by
  simp only [Gives, List.mem_append, or_and_right, exists_or]

theorem gives_nil : Gives [] w i ↔ False := by
  simp [Gives]

theorem gives_cons {row : Row} {rows : List Row} :
    Gives (row :: rows) w i ↔ (row.Covers w ∧ row.operation w = i) ∨ Gives rows w i := by
  simp [Gives]

/-- What holds of the families of all rows holds of the family of a word that one of them covers. -/
theorem Gives.family {rows : List Row} (gives : Gives rows w i) (p : Nat → Prop)
    (only : ∀ row ∈ rows, p row.family) : p w.family.val := by
  obtain ⟨row, member, covers, -⟩ := gives
  have same : w.family.val = row.family := covers.family
  rw [same]
  exact only row member

theorem covers_any {family : Nat} {operation : Word → Instruction} :
    (Row.mk family .any operation).Covers w ↔ w.family.val = family :=
  ⟨fun covers => covers.family, fun family => ⟨family, trivial⟩⟩

theorem covers_nibble {family last : Nat} {operation : Word → Instruction} :
    (Row.mk family (.nibble last) operation).Covers w ↔
      w.family.val = family ∧ w.nibble.val = last :=
  ⟨fun covers => ⟨covers.family, covers.rest⟩, fun ⟨family, rest⟩ => ⟨family, rest⟩⟩

theorem covers_byte {family low : Nat} {operation : Word → Instruction} :
    (Row.mk family (.byte low) operation).Covers w ↔
      w.family.val = family ∧ w.byte.toNat = low := by
  rw [Word.toNat_byte]
  exact ⟨fun covers => ⟨covers.family, covers.rest⟩, fun ⟨family, rest⟩ => ⟨family, rest⟩⟩

theorem covers_address {family low : Nat} {operation : Word → Instruction} (small : low < 256) :
    (Row.mk family (.address low) operation).Covers w ↔
      w.family.val = family ∧ w.byte.toNat = low ∧ w.x.val = 0 := by
  have rest : w.toNat % 4096 = low ↔ w.byte.toNat = low ∧ w.x.val = 0 := by
    simp only [Word.toNat_byte, Word.x]
    omega
  rw [← rest]
  exact ⟨fun covers => ⟨covers.family, covers.rest⟩, fun ⟨family, rest⟩ => ⟨family, rest⟩⟩

theorem isStray_iff {low : Nat} (family : w.family.val = 0x0) :
    w.IsStray low ↔ w.byte.toNat = low ∧ w.x.val ≠ 0 := by
  simp only [Word.family] at family
  simp only [Word.toNat_byte, Word.IsStray, Word.x]
  omega

theorem not_isStray {low : Nat} (family : w.family.val ≠ 0x0) : ¬ w.IsStray low := by
  rintro ⟨-, below, -⟩
  simp only [Word.family] at family
  omega

namespace Instruction

theorem decodeArithmetic_eq_some_iff (family : w.family.val = 0x8) :
    decodeArithmetic w = some i ↔ Gives arithmeticRows w i := by
  simp only [arithmeticRows, gives_cons, gives_nil, covers_nibble, family, true_and, or_false]
  unfold decodeArithmetic
  split <;> simp_all

theorem decodeKey_eq_some_iff (family : w.family.val = 0xE) :
    decodeKey w = some i ↔ Gives keyRows w i := by
  simp only [keyRows, gives_cons, gives_nil, covers_byte, family, true_and, or_false]
  unfold decodeKey
  split <;> simp_all

theorem decodeTransfer_eq_some_iff (family : w.family.val = 0xF) :
    decodeTransfer w = some i ↔ Gives transferRows w i := by
  simp only [transferRows, gives_cons, gives_nil, covers_byte, family, true_and, or_false]
  unfold decodeTransfer
  split <;> simp_all

/-- What is accepted of family 0: the rows, and the words that are taken for one. -/
theorem decodeSystem_eq_some_iff (family : w.family.val = 0x0) :
    decodeSystem w = some i ↔
      Gives systemRows w i ∨ (w.IsStray 0xE0 ∧ clear = i) ∨ (w.IsStray 0xEE ∧ ret = i) := by
  have screen (operation) := @covers_address w 0x0 0xE0 operation (by decide)
  have back (operation) := @covers_address w 0x0 0xEE operation (by decide)
  simp only [systemRows, gives_cons, gives_nil, covers_byte, screen, back, isStray_iff family,
    family, true_and, or_false]
  unfold decodeSystem
  by_cases page : w.x.val = 0
  · split <;> simp_all
  · split <;> simp_all

def IsPlain (family : Nat) : Prop :=
  family ≠ 0x0 ∧ family ≠ 0x8 ∧ family ≠ 0xE ∧ family ≠ 0xF

instance (family : Nat) : Decidable (IsPlain family) :=
  inferInstanceAs (Decidable (_ ∧ _ ∧ _ ∧ _))

theorem decode_eq_some_iff_of_plain (plain : IsPlain w.family.val) :
    decode w = some i ↔ Gives familyRows w i := by
  have family : w.family.val = 0x1 ∨ w.family.val = 0x2 ∨ w.family.val = 0x3 ∨ w.family.val = 0x4 ∨
      w.family.val = 0x5 ∨ w.family.val = 0x6 ∨ w.family.val = 0x7 ∨ w.family.val = 0x9 ∨
      w.family.val = 0xA ∨ w.family.val = 0xB ∨ w.family.val = 0xC ∨ w.family.val = 0xD := by
    have := w.family.isLt
    unfold IsPlain at plain
    omega
  simp only [familyRows, gives_cons, gives_nil, covers_any, or_false]
  rcases family with family | family | family | family | family | family | family | family | family |
    family | family | family
  all_goals simp [decode, family]

/-- What is accepted: the rows of the table, and the words that are taken for one. -/
theorem decode_eq_some_iff :
    decode w = some i ↔ Gives instructionTable w i ∨ (w.IsStray 0xE0 ∧ clear = i) ∨
      (w.IsStray 0xEE ∧ ret = i) := by
  have system : Gives systemRows w i → w.family.val = 0x0 :=
    fun gives => gives.family (· = 0x0) (by decide)
  have plain : Gives familyRows w i → IsPlain w.family.val :=
    fun gives => gives.family IsPlain (by decide)
  have arithmetic : Gives arithmeticRows w i → w.family.val = 0x8 :=
    fun gives => gives.family (· = 0x8) (by decide)
  have key : Gives keyRows w i → w.family.val = 0xE :=
    fun gives => gives.family (· = 0xE) (by decide)
  have transfer : Gives transferRows w i → w.family.val = 0xF :=
    fun gives => gives.family (· = 0xF) (by decide)
  simp only [instructionTable, gives_append]
  -- In each family, the rows of the others give nothing.
  by_cases single : IsPlain w.family.val
  · rw [decode_eq_some_iff_of_plain single]
    obtain ⟨none, -, -, -⟩ := id single
    have stray (low) : ¬ w.IsStray low := not_isStray none
    simp_all [IsPlain]
  · have family : w.family.val = 0x0 ∨ w.family.val = 0x8 ∨ w.family.val = 0xE ∨
        w.family.val = 0xF := by
      unfold IsPlain at single
      omega
    rcases family with family | family | family | family
    · have decode : decode w = decodeSystem w := by simp only [Instruction.decode, family]
      rw [decode, decodeSystem_eq_some_iff family]
      simp_all
    · have decode : decode w = decodeArithmetic w := by simp only [Instruction.decode, family]
      rw [decode, decodeArithmetic_eq_some_iff family]
      simp_all [not_isStray]
    · have decode : decode w = decodeKey w := by simp only [Instruction.decode, family]
      rw [decode, decodeKey_eq_some_iff family]
      simp_all [not_isStray]
    · have decode : decode w = decodeTransfer w := by simp only [Instruction.decode, family]
      rw [decode, decodeTransfer_eq_some_iff family]
      simp_all [not_isStray]

theorem decode_of_row {row : Row} (member : row ∈ instructionTable) (covers : row.Covers w) :
    decode w = some (row.operation w) :=
  decode_eq_some_iff.2 (.inl ⟨row, member, covers, rfl⟩)

theorem decode_of_strayClear (stray : w.IsStray 0xE0) : decode w = some .clear :=
  decode_eq_some_iff.2 (.inr (.inl ⟨stray, rfl⟩))

theorem decode_of_strayReturn (stray : w.IsStray 0xEE) : decode w = some .ret :=
  decode_eq_some_iff.2 (.inr (.inr ⟨stray, rfl⟩))

theorem decode_eq_none_iff : decode w = none ↔ w.IsUnknown := by
  constructor
  · intro refused
    refine ⟨fun ⟨row, member, covers⟩ => ?_, fun stray => ?_, fun stray => ?_⟩
    · rw [decode_of_row member covers] at refused
      cases refused
    · rw [decode_of_strayClear stray] at refused
      cases refused
    · rw [decode_of_strayReturn stray] at refused
      cases refused
  · intro unknown
    cases accepted : decode w with
    | none => rfl
    | some i =>
      rcases decode_eq_some_iff.1 accepted with ⟨row, member, covers, -⟩ | ⟨stray, -⟩ | ⟨stray, -⟩
      · exact absurd ⟨row, member, covers⟩ unknown.unlisted
      · exact absurd stray unknown.notClear
      · exact absurd stray unknown.notReturn

/-- The text of an instruction is not that of a word that is none. -/
theorem not_dw_text (i : Instruction) : ¬ "DW".toList <+: i.text.toList := by
  have literal (s : String) : toString s = s := rfl
  cases i <;> simp [text, String.toList_append, literal]

end Instruction

/-- Exactly the words that are refused have the text of a word that is no instruction. -/
theorem Word.dw_text_iff : "DW".toList <+: w.text.toList ↔ w.IsUnknown := by
  rw [← Instruction.decode_eq_none_iff, Word.text]
  cases Instruction.decode w with
  | none => simp [String.toList_append]
  | some i => exact iff_of_false (Instruction.not_dw_text i) nofun

/-! ### Listings -/

namespace Listing

def place (showBytes : Bool) (address : Int) (w : Word) : String :=
  s!"${Text.hex 3 address}: " ++ if showBytes then s!"{Text.hex 4 w.toNat}  " else ""

theorem wordLine_eq (showBytes : Bool) (address : Int) (w : Word) :
    wordLine showBytes address w = place showBytes address w ++ w.text := by
  have literal (s : String) : toString s = s := rfl
  cases showBytes with
  | false => simp [wordLine, place, literal]
  | true => simp [wordLine, place, literal, String.append_assoc]

theorem getElem?_bytes {showBytes : Bool} {address : Int} {data : List UInt8} {k : Nat}
    {high low : UInt8} (first : data[2 * k]? = some high) (second : data[2 * k + 1]? = some low) :
    (bytes showBytes address data)[k]? =
      some (wordLine showBytes (address + 2 * k) (Word.ofBytes high low)) := by
  induction k generalizing address data with
  | zero =>
    match data, first, second with
    | high :: low :: data, rfl, rfl => simp [bytes]
  | succ k ih =>
    match data, first, second with
    | _ :: _ :: data, first, second =>
      have behind : address + 2 + 2 * k = address + 2 * (k + 1 : Nat) := by omega
      have next : (bytes showBytes (address + 2) data)[k]? =
          some (wordLine showBytes (address + 2 + 2 * k) (Word.ofBytes high low)) := ih first second
      rw [bytes, List.getElem?_cons_succ, next, behind]

theorem getElem?_ofBytes {data : List UInt8} {address : Int} {count : Option Int} {showBytes : Bool}
    {k : Nat} {high low : UInt8} (first : data[2 * k]? = some high)
    (second : data[2 * k + 1]? = some low) (shown : ∀ n ∈ count, (k : Int) < n) :
    (ofBytes data address count showBytes)[k]? =
      some (wordLine showBytes (address + 2 * k) (Word.ofBytes high low)) := by
  have line : (bytes showBytes address data)[k]? =
      some (wordLine showBytes (address + 2 * k) (Word.ofBytes high low)) :=
    getElem?_bytes first second
  cases count with
  | none => exact line
  | some n =>
    have shown := shown n rfl
    simp only [ofBytes, limit]
    rw [List.getElem?_take_of_lt (by omega), line]

end Listing

/-! ### Steps -/

namespace Interpreter

variable {i : Interpreter σ size}

/-- The next step comes to a word: the cache is sound, no key is waited for, the word is at the
program counter, and no hook keeps it from running. -/
structure ComesTo (i : Interpreter σ size) (w : Word) : Prop where
  coherent : i.Coherent
  active : i.machine.processor.waiting = false
  there : i.machine.HasWord i.machine.processor.pc w
  free : (i.ask i.machine.processor.pc w).1 = true

def Refuses (i : Interpreter σ size) : Prop :=
  ∃ fault opcode, i.step.1 = .error fault ∧ fault.cause = .unknownOpcode opcode

theorem ComesTo.executes {instruction : Instruction} (next : i.ComesTo w)
    (accepted : Instruction.decode w = some instruction) : i.Executes ⟨w, instruction⟩ :=
  next.coherent.executes next.active (Machine.decoded_eq_ok_iff.2 ⟨next.there, accepted⟩) next.free

theorem ComesTo.refuses (next : i.ComesTo w) (unknown : Instruction.decode w = none) :
    i.Refuses := by
  match fetch : i.fetch i.machine.processor.pc with
  | (result, fetched) =>
    obtain ⟨rfl, -, -⟩ := next.coherent.fetch fetch
    rw [Machine.decoded_eq_error_iff.2 (.inr ⟨w, next.there, unknown, rfl⟩)] at fetch
    rw [Refuses, (Stepped.unfetched next.active fetch).step_eq]
    exact ⟨_, _, rfl, rfl⟩

/-- An instruction does not fail with an unknown opcode. -/
theorem Executes.not_refuses {decoded : Decoded} (next : i.Executes decoded) : ¬ i.Refuses := by
  rintro ⟨fault, opcode, failed, cause⟩
  cases done : i.machine.past.execute decoded.instruction with
  | ok result =>
    rw [(next.performs.done done).1] at failed
    cases failed
  | error other =>
    rw [next.performs.failed done] at failed
    cases failed
    rcases Machine.execute_eq_error_iff.1 done with ⟨-, -, rfl⟩ | ⟨-, access, -, rfl⟩
    · cases cause
    · cases cause

theorem ComesTo.refuses_iff (next : i.ComesTo w) : i.Refuses ↔ w.IsUnknown := by
  rw [← Instruction.decode_eq_none_iff]
  constructor
  · intro refuses
    cases accepted : Instruction.decode w with
    | none => rfl
    | some instruction => exact absurd refuses (next.executes accepted).not_refuses
  · exact next.refuses

end Interpreter

/-- Exactly the unknown words are refused by a step and listed as no instruction. The words of a row
perform the operation of the row, and stray words clear the screen or return. -/
theorem instructionTable_decides :
    (∀ (i : Interpreter σ size) (w : Word), i.ComesTo w →
      (i.Refuses ↔ w.IsUnknown) ∧
        (∀ row ∈ instructionTable, row.Covers w → i.Performs ⟨w, row.operation w⟩) ∧
        (w.IsStray 0xE0 → i.Performs ⟨w, .clear⟩) ∧ (w.IsStray 0xEE → i.Performs ⟨w, .ret⟩)) ∧
      ∀ (data : List UInt8) (address : Int) (count : Option Int) (showBytes : Bool) (k : Nat)
        (high low : UInt8), data[2 * k]? = some high → data[2 * k + 1]? = some low →
          (∀ n ∈ count, (k : Int) < n) →
            ∃ text, (Listing.ofBytes data address count showBytes)[k]? =
                some (Listing.place showBytes (address + 2 * k) (.ofBytes high low) ++ text) ∧
              ("DW".toList <+: text.toList ↔ (Word.ofBytes high low).IsUnknown) := by
  refine ⟨fun i w next => ⟨next.refuses_iff, fun row member covers => ?_, fun stray => ?_,
    fun stray => ?_⟩, fun data address count showBytes k high low first second shown => ?_⟩
  · exact (next.executes (Instruction.decode_of_row member covers)).performs
  · exact (next.executes (Instruction.decode_of_strayClear stray)).performs
  · exact (next.executes (Instruction.decode_of_strayReturn stray)).performs
  · refine ⟨(Word.ofBytes high low).text, ?_, Word.dw_text_iff⟩
    rw [Listing.getElem?_ofBytes first second shown, Listing.wordLine_eq]

def loneWord (high low : UInt8) : Interpreter Unit 2 where
  machine := {
    processor := { pc := 0 }
    memory := ⟨#v[high, low], none⟩
    screen := .blank
    keypad := .released
    random := ⟨.replicate 624 0, 0⟩ }
  cache := none
  hooks := {}
  observer := ()
  stopRequested := false

theorem loneWord_comesTo (high low : UInt8) :
    (loneWord high low).ComesTo (Word.ofBytes high low) where
  coherent := nofun
  active := rfl
  there := ⟨Int.le_refl 0, (by decide : (0 : Int) + 1 < 2), Word.toNat_ofBytes high low⟩
  free := rfl

/-- The word 8129 is in no row, and 812E is a shift. -/
theorem instructionTable_decides_arithmetic :
    (loneWord 0x81 0x29).ComesTo 0x8129 ∧ Word.IsUnknown 0x8129 ∧ (loneWord 0x81 0x29).Refuses ∧
      (loneWord 0x81 0x2E).ComesTo 0x812E ∧ (loneWord 0x81 0x2E).Performs ⟨0x812E, .shiftLeft 1⟩ ∧
        ∃ text, (Listing.ofBytes [0x81, 0x2E, 0x81, 0x29] 0x200 none true)[1]? =
            some (Listing.place true 0x202 0x8129 ++ text) ∧ "DW".toList <+: text.toList := by
  have refused := loneWord_comesTo 0x81 0x29
  have shifts := loneWord_comesTo 0x81 0x2E
  have unknown : Word.IsUnknown 0x8129 := ⟨by decide, by decide, by decide⟩
  obtain ⟨steps, lines⟩ := @instructionTable_decides Unit 2
  obtain ⟨refuses, -⟩ := steps _ _ refused
  obtain ⟨-, rows, -⟩ := steps _ _ shifts
  have shift := rows ⟨0x8, .nibble 0xE, fun w => .shiftLeft w.x⟩
    (by simp [instructionTable, arithmeticRows]) (by decide)
  obtain ⟨text, line, iff⟩ := lines [0x81, 0x2E, 0x81, 0x29] 0x200 none true 1 _ _ rfl rfl nofun
  exact ⟨refused, unknown, refuses.2 unknown, shifts, shift, text, line, iff.2 unknown⟩

/-- The word 01E0 is in no row, and clears the screen. -/
theorem unlisted_accepted_01E0 :
    (loneWord 0x01 0xE0).ComesTo 0x01E0 ∧ ¬ Word.IsListed 0x01E0 ∧ ¬ (loneWord 0x01 0xE0).Refuses ∧
      (loneWord 0x01 0xE0).step.1 = .ok true ∧
        Listing.ofBytes [0x01, 0xE0] 0x200 none true = ["$200: 01E0  CLS"] := by
  have ran : (loneWord 0x01 0xE0).step.1 = .ok true := rfl
  refine ⟨loneWord_comesTo 0x01 0xE0, by decide, ?_, ran, by decide +kernel⟩
  rintro ⟨fault, opcode, failed, -⟩
  rw [ran] at failed
  cases failed

end Chip8
