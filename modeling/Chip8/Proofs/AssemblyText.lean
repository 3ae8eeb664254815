import Chip8.Proofs.InstructionTable
import Chip8.Proofs.StepOrder

/-! What the text of a word tells.

The text of an instruction is a line of a mnemonic and operands, and a line can be read back. So the
text tells the instruction, and with it all that executing the word comes to: bits that the text
does not show take no part. The text of any other word tells the word itself.
-/

set_option autoImplicit false

namespace Chip8

variable {σ : Type} {size : Nat}

/-! ### Operands -/

inductive Operand where
  | register (x : Register)
  | byte (value : UInt8)
  | address (target : Address)
  | rows (count : Fin 16)
  | index
  | atIndex
  | delay
  | sound
  | key
  | glyph
  | decimal
  deriving DecidableEq, Repr

namespace Operand

def text : Operand → String
  | register x => x.text
  | byte value => Instruction.byteText value
  | address target => Address.text target
  | rows count => Nat.repr count.val
  | index => "I"
  | atIndex => "[I]"
  | delay => "DT"
  | sound => "ST"
  | key => "K"
  | glyph => "F"
  | decimal => "B"

theorem text_register (x : Register) :
    (register x).text.toList = 'V' :: (Text.hex 1 x.val).toList :=
  String.toList_append

theorem text_byte (value : UInt8) :
    (byte value).text.toList = '$' :: (Text.hex 2 value.toNat).toList :=
  String.toList_append

theorem text_address (target : Address) :
    (address target).text.toList = '$' :: (Text.hex 3 target.val).toList :=
  String.toList_append

def read : List Char → Option Operand
  | 'V' :: digits => some (.register ⟨Text.hexValue digits % 16, Nat.mod_lt _ (by decide)⟩)
  | '$' :: digits =>
    some (if digits.length = 2 then .byte (UInt8.ofNat (Text.hexValue digits))
      else .address ⟨Text.hexValue digits % 4096, Nat.mod_lt _ (by decide)⟩)
  | ['I'] => some .index
  | ['[', 'I', ']'] => some .atIndex
  | ['D', 'T'] => some .delay
  | ['S', 'T'] => some .sound
  | ['K'] => some .key
  | ['F'] => some .glyph
  | ['B'] => some .decimal
  | digits => ((List.finRange 16).find? fun count => (Nat.repr count.val).toList = digits).map .rows

theorem read_text (o : Operand) : read o.text.toList = some o := by
  cases o with
  | register x =>
    have low : x.val % 16 = x.val := Nat.mod_eq_of_lt x.isLt
    simp only [text_register, read, Text.hexValue_hex, low]
  | byte value =>
    have two : (Text.hex 2 value.toNat).toList.length = 2 := Text.length_hex value.toNat_lt
    rw [text_byte, read, if_pos two, Text.hexValue_hex, UInt8.ofNat_toNat]
  | address target =>
    have three : (Text.hex 3 target.val).toList.length = 3 := Text.length_hex target.isLt
    have low : target.val % 4096 = target.val := Nat.mod_eq_of_lt target.isLt
    rw [text_address, read, if_neg (by omega)]
    simp only [Text.hexValue_hex, low]
  | rows count =>
    revert count
    decide
  | index | atIndex | delay | sound | key | glyph | decimal => rfl

theorem text_injective {o o' : Operand} (same : o.text = o'.text) : o = o' := by
  have read : read o.text.toList = read o'.text.toList := by rw [same]
  rw [read_text, read_text] at read
  exact Option.some.inj read

def isSeparator (c : Char) : Bool :=
  c == ' ' || c == ','

theorem any_isSeparator_hex (width n : Nat) :
    (Text.hex width n).toList.any isSeparator = false := by
  have alphabet : Text.hexAlphabet.any isSeparator = false := by decide
  rw [List.any_eq_false] at alphabet ⊢
  intro c member
  exact alphabet c (Text.mem_hexAlphabet_of_mem_hex member)

theorem any_isSeparator (o : Operand) : o.text.toList.any isSeparator = false := by
  cases o with
  | register x =>
    rw [text_register, List.any_cons, any_isSeparator_hex]
    rfl
  | byte value =>
    rw [text_byte, List.any_cons, any_isSeparator_hex]
    rfl
  | address target =>
    rw [text_address, List.any_cons, any_isSeparator_hex]
    rfl
  | rows count =>
    revert count
    decide
  | index | atIndex | delay | sound | key | glyph | decimal => rfl

theorem ne_of_mem_text {o : Operand} {c : Char} (member : c ∈ o.text.toList) :
    c ≠ ' ' ∧ c ≠ ',' := by
  have between : ¬ isSeparator c = true := List.any_eq_false.1 o.any_isSeparator c member
  simpa [isSeparator] using between

theorem filter_text (o : Operand) : o.text.toList.filter (· != ',') = o.text.toList := by
  apply List.filter_eq_self.2
  intro c member
  exact bne_iff_ne.2 (ne_of_mem_text member).2

end Operand

/-! ### Lines -/

structure Line where
  mnemonic : String
  operands : List Operand
  deriving DecidableEq, Repr

def Line.fields (l : Line) : List (List Char) :=
  l.mnemonic.toList :: l.operands.map (·.text.toList)

theorem Line.fields_injective {l l' : Line} (same : l.fields = l'.fields) : l = l' := by
  obtain ⟨mnemonic, operands⟩ := List.cons.inj same
  have injective (o o' : Operand) (same : o.text.toList = o'.text.toList) : o = o' :=
    Operand.text_injective (String.toList_injective same)
  obtain ⟨m, os⟩ := l
  obtain ⟨m', os'⟩ := l'
  obtain rfl : m = m' := String.toList_injective mnemonic
  obtain rfl : os = os' := (List.map_inj_right injective).1 operands
  rfl

namespace Instruction

def line : Instruction → Line
  | machineCall target => ⟨"SYS", [.address target]⟩
  | clear => ⟨"CLS", []⟩
  | ret => ⟨"RET", []⟩
  | jump target => ⟨"JP", [.address target]⟩
  | call target => ⟨"CALL", [.address target]⟩
  | jumpFrom target => ⟨"JP", [.register .first, .address target]⟩
  | skipIfByte x value => ⟨"SE", [.register x, .byte value]⟩
  | skipUnlessByte x value => ⟨"SNE", [.register x, .byte value]⟩
  | skipIfSame x y => ⟨"SE", [.register x, .register y]⟩
  | skipUnlessSame x y => ⟨"SNE", [.register x, .register y]⟩
  | skipIfDown x => ⟨"SKP", [.register x]⟩
  | skipIfUp x => ⟨"SKNP", [.register x]⟩
  | setByte x value => ⟨"LD", [.register x, .byte value]⟩
  | addByte x value => ⟨"ADD", [.register x, .byte value]⟩
  | copy x y => ⟨"LD", [.register x, .register y]⟩
  | or x y => ⟨"OR", [.register x, .register y]⟩
  | and x y => ⟨"AND", [.register x, .register y]⟩
  | xor x y => ⟨"XOR", [.register x, .register y]⟩
  | add x y => ⟨"ADD", [.register x, .register y]⟩
  | subtract x y => ⟨"SUB", [.register x, .register y]⟩
  | shiftRight x => ⟨"SHR", [.register x]⟩
  | subtractFrom x y => ⟨"SUBN", [.register x, .register y]⟩
  | shiftLeft x => ⟨"SHL", [.register x]⟩
  | setIndex target => ⟨"LD", [.index, .address target]⟩
  | addIndex x => ⟨"ADD", [.index, .register x]⟩
  | indexGlyph x => ⟨"LD", [.glyph, .register x]⟩
  | random x mask => ⟨"RND", [.register x, .byte mask]⟩
  | draw x y rows => ⟨"DRW", [.register x, .register y, .rows rows]⟩
  | readDelay x => ⟨"LD", [.register x, .delay]⟩
  | setDelay x => ⟨"LD", [.delay, .register x]⟩
  | setSound x => ⟨"LD", [.sound, .register x]⟩
  | awaitKey x => ⟨"LD", [.register x, .key]⟩
  | storeDecimal x => ⟨"LD", [.decimal, .register x]⟩
  | storeRegisters x => ⟨"LD", [.atIndex, .register x]⟩
  | loadRegisters x => ⟨"LD", [.register x, .atIndex]⟩

def ofLine? : Line → Option Instruction
  | ⟨"SYS", [.address target]⟩ => some (.machineCall target)
  | ⟨"CLS", []⟩ => some .clear
  | ⟨"RET", []⟩ => some .ret
  | ⟨"JP", [.address target]⟩ => some (.jump target)
  | ⟨"CALL", [.address target]⟩ => some (.call target)
  | ⟨"JP", [.register _, .address target]⟩ => some (.jumpFrom target)
  | ⟨"SE", [.register x, .byte value]⟩ => some (.skipIfByte x value)
  | ⟨"SNE", [.register x, .byte value]⟩ => some (.skipUnlessByte x value)
  | ⟨"SE", [.register x, .register y]⟩ => some (.skipIfSame x y)
  | ⟨"SNE", [.register x, .register y]⟩ => some (.skipUnlessSame x y)
  | ⟨"SKP", [.register x]⟩ => some (.skipIfDown x)
  | ⟨"SKNP", [.register x]⟩ => some (.skipIfUp x)
  | ⟨"LD", [.register x, .byte value]⟩ => some (.setByte x value)
  | ⟨"ADD", [.register x, .byte value]⟩ => some (.addByte x value)
  | ⟨"LD", [.register x, .register y]⟩ => some (.copy x y)
  | ⟨"OR", [.register x, .register y]⟩ => some (.or x y)
  | ⟨"AND", [.register x, .register y]⟩ => some (.and x y)
  | ⟨"XOR", [.register x, .register y]⟩ => some (.xor x y)
  | ⟨"ADD", [.register x, .register y]⟩ => some (.add x y)
  | ⟨"SUB", [.register x, .register y]⟩ => some (.subtract x y)
  | ⟨"SHR", [.register x]⟩ => some (.shiftRight x)
  | ⟨"SUBN", [.register x, .register y]⟩ => some (.subtractFrom x y)
  | ⟨"SHL", [.register x]⟩ => some (.shiftLeft x)
  | ⟨"LD", [.index, .address target]⟩ => some (.setIndex target)
  | ⟨"ADD", [.index, .register x]⟩ => some (.addIndex x)
  | ⟨"LD", [.glyph, .register x]⟩ => some (.indexGlyph x)
  | ⟨"RND", [.register x, .byte mask]⟩ => some (.random x mask)
  | ⟨"DRW", [.register x, .register y, .rows count]⟩ => some (.draw x y count)
  | ⟨"LD", [.register x, .delay]⟩ => some (.readDelay x)
  | ⟨"LD", [.delay, .register x]⟩ => some (.setDelay x)
  | ⟨"LD", [.sound, .register x]⟩ => some (.setSound x)
  | ⟨"LD", [.register x, .key]⟩ => some (.awaitKey x)
  | ⟨"LD", [.decimal, .register x]⟩ => some (.storeDecimal x)
  | ⟨"LD", [.atIndex, .register x]⟩ => some (.storeRegisters x)
  | ⟨"LD", [.register x, .atIndex]⟩ => some (.loadRegisters x)
  | _ => none

theorem ofLine?_line (i : Instruction) : ofLine? i.line = some i := by
  cases i <;> rfl

/-- Commas apart, the text of an instruction is its line. -/
theorem text_line (i : Instruction) :
    i.text.toList.filter (· != ',') = [' '].intercalate i.line.fields := by
  have literal (s : String) : toString s = s := rfl
  -- Operands have no comma in them, so only the commas between them go.
  have register (x : Register) : x.text.toList.filter (· != ',') = x.text.toList :=
    (Operand.register x).filter_text
  have byte (value : UInt8) : (byteText value).toList.filter (· != ',') = (byteText value).toList :=
    (Operand.byte value).filter_text
  have address (target : Address) :
      (Address.text target).toList.filter (· != ',') = (Address.text target).toList :=
    (Operand.address target).filter_text
  have rows (count : Fin 16) :
      (Nat.repr count.val).toList.filter (· != ',') = (Nat.repr count.val).toList :=
    (Operand.rows count).filter_text
  -- The text of a jump from register 0 has the name of the register written out in it.
  have first : (Register.text .first).toList = ['V', '0'] := by decide +kernel
  cases i <;>
    simp [text, line, Line.fields, Operand.text, literal, List.intercalate, register, byte, address,
      rows, first, -Nat.toList_repr]

/-- The line can be told from the text. -/
theorem splitOn_text (i : Instruction) :
    (i.text.toList.filter (· != ',')).splitOn ' ' = i.line.fields := by
  have mnemonic : ' ' ∉ i.line.mnemonic.toList := by cases i <;> simp [line]
  rw [text_line]
  apply List.splitOn_intercalate
  · intro field member blank
    rcases List.mem_cons.1 member with rfl | member
    · exact mnemonic blank
    · obtain ⟨o, -, rfl⟩ := List.mem_map.1 member
      exact (Operand.ne_of_mem_text blank).1 rfl
  · exact List.cons_ne_nil _ _

theorem text_injective {i j : Instruction} (same : i.text = j.text) : i = j := by
  have fields : i.line.fields = j.line.fields := by rw [← splitOn_text, same, splitOn_text]
  have read : ofLine? i.line = ofLine? j.line := by rw [Line.fields_injective fields]
  rw [ofLine?_line, ofLine?_line] at read
  exact Option.some.inj read

end Instruction

namespace Word

variable {w w' : Word}

theorem text_of_decode {i : Instruction} (accepted : Instruction.decode w = some i) :
    w.text = i.text := by
  rw [text, accepted]

theorem text_record {i : Instruction} (accepted : Instruction.decode w = some i) :
    Record.decode w = some (i.record w) ∧ (i.record w).text = w.text := by
  rw [Record.decode_eq_some_iff, ← Record.text_typed, Instruction.typed_record,
    text_of_decode accepted]
  exact ⟨accepted, rfl⟩

theorem text_of_unknown (unknown : Instruction.decode w = none) :
    w.text = "DW $" ++ Text.hex 4 w.toNat := by
  rw [text, unknown]

/-- A word that is no instruction is told from its text. -/
theorem eq_of_unknown_text (unknown : Instruction.decode w = none)
    (unknown' : Instruction.decode w' = none) (same : w.text = w'.text) : w = w' := by
  rw [text_of_unknown unknown, text_of_unknown unknown', String.append_right_inj] at same
  apply UInt16.toNat_inj.1
  rw [← Text.hexValue_hex 4 w.toNat, same, Text.hexValue_hex]

theorem not_same_text {i : Instruction} (accepted : Instruction.decode w = some i)
    (unknown : Instruction.decode w' = none) : w.text ≠ w'.text := by
  intro same
  have directive : "DW".toList <+: w'.text.toList :=
    dw_text_iff.2 (Instruction.decode_eq_none_iff.1 unknown)
  rw [← same, text_of_decode accepted] at directive
  exact i.not_dw_text directive

/-- Words of one text are one word, or stand for one instruction. -/
theorem text_eq_iff : w.text = w'.text ↔
    (w = w' ∧ Instruction.decode w = none) ∨
      ∃ i, Instruction.decode w = some i ∧ Instruction.decode w' = some i := by
  constructor
  · intro same
    cases first : Instruction.decode w with
    | none =>
      cases second : Instruction.decode w' with
      | none => exact .inl ⟨eq_of_unknown_text first second same, rfl⟩
      | some j => exact absurd same.symm (not_same_text second first)
    | some i =>
      cases second : Instruction.decode w' with
      | none => exact absurd same (not_same_text first second)
      | some j =>
        rw [text_of_decode first, text_of_decode second] at same
        obtain rfl := Instruction.text_injective same
        exact .inr ⟨i, rfl, rfl⟩
  · rintro (⟨rfl, -⟩ | ⟨i, first, second⟩)
    · rfl
    · rw [text_of_decode first, text_of_decode second]

end Word

/-! ### Executing a word -/

namespace Interpreter

/-- Execute a word that was fetched at an address, as a step does unless a hook keeps it from it. -/
def executeWord (i : Interpreter σ size) (pc : Int) (w : Word) :
    Except Fault Unit × Interpreter σ size :=
  match Instruction.decode w with
  | none => (.error ((Fault.ofCause (.unknownOpcode w.toNat)).locate pc none), i)
  | some instruction =>
    match (i.passed pc).execute instruction with
    | (.error cause, i) => (.error ((Fault.ofCause cause).locate pc (some w.toNat)), i)
    | (.ok (), i) => (.ok (), i)

/-- The next step fetches a word, which is an instruction, and no hook keeps it from running; then the
interpreter is as it is left by fetching and asking. -/
inductive Reaches (i : Interpreter σ size) (w : Word) (asked : Interpreter σ size) : Prop where
  | intro {instruction : Instruction} {fetched : Interpreter σ size} :
      i.machine.processor.waiting = false →
      i.fetch i.machine.processor.pc = (.ok ⟨w, instruction⟩, fetched) →
      Instruction.decode w = some instruction →
      fetched.ask i.machine.processor.pc w = (true, asked) → Reaches i w asked

theorem step_eq_executeWord {i asked : Interpreter σ size} {w : Word} (reaches : i.Reaches w asked) :
    i.step = ((asked.executeWord i.machine.processor.pc w).1.map fun _ => true,
      (asked.executeWord i.machine.processor.pc w).2) := by
  obtain @⟨instruction, fetched, active, fetch, accepted, ask⟩ := reaches
  unfold executeWord
  -- The hook may have changed the observer, so the word is executed from what it left.
  cases done : (asked.passed i.machine.processor.pc).machine.execute instruction with
  | error cause =>
    rw [(Stepped.failed active fetch ask done).step_eq]
    simp only [accepted, execute_eq_error done, Except.map]
  | ok result =>
    obtain ⟨machine, stores⟩ := result
    rw [(Stepped.executed active fetch ask done).step_eq]
    simp only [accepted, execute_eq_ok done, Except.map]
    rfl

/-- Two executions that end alike: they leave the same, and fail for the same cause and with the
same message if they fail. -/
inductive EndAlike :
    Except Fault Unit × Interpreter σ size → Except Fault Unit × Interpreter σ size → Prop where
  | done (i : Interpreter σ size) : EndAlike (.ok (), i) (.ok (), i)
  | failed (i : Interpreter σ size) {f g : Fault} (cause : f.cause = g.cause)
      (message : f.message = g.message) : EndAlike (.error f, i) (.error g, i)

theorem executeWord_alike {w w' : Word} {instruction : Instruction}
    (first : Instruction.decode w = some instruction)
    (second : Instruction.decode w' = some instruction) (i : Interpreter σ size) (pc : Int) :
    EndAlike (i.executeWord pc w) (i.executeWord pc w') := by
  unfold executeWord
  simp only [first, second]
  cases (i.passed pc).execute instruction with
  | mk result left =>
    cases result with
    | error cause => exact .failed left rfl rfl
    | ok => exact .done left

end Interpreter

/-- Wherever a step comes to run the word, it executes it. -/
def Word.IsExecuted (w : Word) : Prop :=
  ∀ {σ : Type} {size : Nat} (i asked : Interpreter σ size), i.Reaches w asked →
    i.step = ((asked.executeWord i.machine.processor.pc w).1.map fun _ => true,
      (asked.executeWord i.machine.processor.pc w).2)

/-- Words of one text are one word that is no instruction, or stand for one instruction. Executing
either then ends alike, wherever it is executed and whoever is told of its stores; and the fields that
their records do not share are not used. -/
theorem text_determines_execution {w w' : Word} (same : w.text = w'.text) :
    (w = w' ∧ Instruction.decode w = none) ∨
      ∃ instruction, Instruction.decode w = some instruction ∧
        Instruction.decode w' = some instruction ∧
        (∀ {σ : Type} {size : Nat} (i : Interpreter σ size) (pc : Int),
          Interpreter.EndAlike (i.executeWord pc w) (i.executeWord pc w')) ∧
        (w.IsExecuted ∧ w'.IsExecuted) ∧
        ∃ r r', (Record.decode w = some r ∧ r.text = w.text) ∧
          (Record.decode w' = some r' ∧ r'.text = w'.text) ∧
          ∀ {σ : Type} {size : Nat} (s : Logged σ size), r.execute.made s = r'.execute.made s := by
  rcases Word.text_eq_iff.1 same with unknown | ⟨instruction, first, second⟩
  · exact .inl unknown
  · refine .inr ⟨instruction, first, second, ?_, ?_, instruction.record w, instruction.record w',
      ?_, ?_, ?_⟩
    · intro σ size i pc
      exact i.executeWord_alike first second pc
    · exact ⟨fun _ _ => Interpreter.step_eq_executeWord, fun _ _ => Interpreter.step_eq_executeWord⟩
    · exact Word.text_record first
    · exact Word.text_record second
    · intro σ size s
      rw [Record.made_execute, Record.made_execute, Instruction.typed_record,
        Instruction.typed_record]

/-- The words 00EE and 0FEE are both shown as a return. They fail alike if there is no call to
return from, though each fault names its own word. -/
theorem text_determines_execution_return :
    Word.text 0x00EE = Word.text 0x0FEE ∧
      ((loneWord 0x00 0xEE).executeWord 0x200 0x00EE).1 =
        .error ⟨.stackUnderflow, some 0x200, some 0x00EE⟩ ∧
      ((loneWord 0x00 0xEE).executeWord 0x200 0x0FEE).1 =
        .error ⟨.stackUnderflow, some 0x200, some 0x0FEE⟩ ∧
      Interpreter.EndAlike ((loneWord 0x00 0xEE).executeWord 0x200 0x00EE)
        ((loneWord 0x00 0xEE).executeWord 0x200 0x0FEE) := by
  have shown : Word.text 0x00EE = Word.text 0x0FEE := rfl
  refine ⟨shown, rfl, rfl, ?_⟩
  rcases text_determines_execution shown with ⟨one, -⟩ | ⟨-, -, -, alike, -⟩
  · exact absurd one (by decide)
  · exact alike (loneWord 0x00 0xEE) 0x200

end Chip8
