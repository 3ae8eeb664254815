import Chip8.AddressText
import Chip8.Fault
import Chip8.Proofs.AssemblyText
import Chip8.Proofs.ListingColumns
import Chip8.Proofs.WrittenNumerals
import Chip8.StopEvent

/-! Addresses that are shown and read back.

A number behind `$` is read as that number, in columns of any width and with a sign; so is one behind
`0x`, with zeros in front and in letters of either case; and so is a decimal number, unless it is too
long. Hence every number that a listing, a fault or a stop shows behind `$` can be given as an
address.
-/

set_option autoImplicit false

namespace Chip8

open Numeral (Digits Marked Signed)

/-! ### Reading -/

theorem addressNumber?_dollar {text : String} {cs : List Char} (shape : text.toList = '$' :: cs) :
    addressNumber? text = Numeral.hexadecimal? (String.ofList cs) := by
  simp only [addressNumber?, shape]

theorem addressNumber?_marked {text : String} {x : Char} {cs : List Char} (isMark : x = 'x' ∨ x = 'X')
    (shape : text.toList = '0' :: x :: cs) : addressNumber? text = Numeral.hexadecimal? text := by
  rcases isMark with rfl | rfl <;> simp only [addressNumber?, shape]

theorem addressNumber?_decimal {text : String} {n : Int} (signed : Signed (Digits 10) text.toList n) :
    addressNumber? text = Numeral.decimal? text := by
  have read := Numeral.signed_digits_iff.2 signed
  unfold addressNumber?
  -- No decimal numeral has a mark or a `$` in front.
  split
  · next shape =>
    rw [shape] at read
    cases read
  · next shape =>
    rw [shape] at read
    cases read
  · next shape =>
    rw [shape] at read
    cases read
  · rfl

theorem parseAddress_of_number {text : String} {n : Int} (number : addressNumber? text = some n) :
    parseAddress text = .ok n := by
  rw [parseAddress, number]

theorem parseAddress_hexChars (width : Nat) (n : Int) :
    parseAddress (String.ofList ('$' :: Text.hexChars width n)) = .ok n := by
  apply parseAddress_of_number
  rw [addressNumber?_dollar String.toList_ofList]
  apply Numeral.hexadecimal?_of_signed
  rw [String.toList_ofList]
  exact Numeral.signed_hexChars width n

theorem parseAddress_hex (width : Nat) (n : Int) : parseAddress ("$" ++ Text.hex width n) = .ok n := by
  have text : "$" ++ Text.hex width n = String.ofList ('$' :: Text.hexChars width n) := by
    apply String.toList_injective
    simp [Text.hex]
  rw [text, parseAddress_hexChars]

theorem parseAddress_marked {x : Char} {cs : List Char} {n zeros : Nat} (isMark : x = 'x' ∨ x = 'X')
    (same : SameLetters cs (List.replicate zeros '0' ++ Text.hexDigits n)) :
    parseAddress (String.ofList ('0' :: x :: cs)) = .ok n := by
  apply parseAddress_of_number
  rw [addressNumber?_marked isMark String.toList_ofList]
  apply Numeral.hexadecimal?_of_signed
  rw [String.toList_ofList]
  exact .plain (.marked isMark ((Numeral.digits_padded zeros n).of_sameLetters same))

theorem parseAddress_decimal (n : Int) :
    parseAddress (toString n) = .ok n ↔ (toString n.natAbs).length ≤ Numeral.maxDecimalDigits := by
  rw [← Numeral.decimal?_toString, ← addressNumber?_decimal (Numeral.signed_toString n), parseAddress]
  cases addressNumber? (toString n) with
  | none => simp
  | some v => simp

/-! ### The numbers in a text -/

def isNumberChar (c : Char) : Bool :=
  c == '-' || Text.hexAlphabet.contains c

/-- What the numbers in a text are read as. Each begins at a `$`, and goes on as far as it can. -/
def numbersIn : List Char → List (Except AddressError Int)
  | [] => []
  | c :: cs =>
    if c = '$' then parseAddress (String.ofList ('$' :: cs.takeWhile isNumberChar)) :: numbersIn cs
    else numbersIn cs

variable {cs rest : List Char} {c : Char}

@[simp] theorem numbersIn_nil : numbersIn [] = [] := rfl

@[simp] theorem numbersIn_cons_of_ne (other : c ≠ '$') : numbersIn (c :: cs) = numbersIn cs :=
  if_neg other

theorem numbersIn_append (free : '$' ∉ cs) : numbersIn (cs ++ rest) = numbersIn rest := by
  induction cs with
  | nil => rfl
  | cons c cs ih =>
    rw [List.mem_cons, not_or] at free
    rw [List.cons_append, numbersIn_cons_of_ne (Ne.symm free.1), ih free.2]

theorem numbersIn_of_free (free : '$' ∉ cs) : numbersIn cs = [] := by
  have alone : numbersIn (cs ++ []) = numbersIn [] := numbersIn_append free
  rw [List.append_nil] at alone
  exact alone

theorem isNumberChar_of_mem_hexChars {width : Nat} {n : Int} (member : c ∈ Text.hexChars width n) :
    isNumberChar c = true := by
  obtain ⟨digits, form, alphabet, -⟩ := Text.isHex_hexChars width n
  rw [form, List.mem_append] at member
  rcases member with sign | digit
  · split at sign
    · rw [List.mem_singleton.1 sign]
      rfl
    · cases sign
  · exact Bool.or_eq_true_iff.2 (.inr (List.contains_iff_mem.2 (alphabet c digit)))

theorem dollar_notMem_hexChars (width : Nat) (n : Int) : '$' ∉ Text.hexChars width n := by
  intro member
  cases isNumberChar_of_mem_hexChars member

@[simp] theorem numbersIn_hexChars (width : Nat) (n : Int) :
    numbersIn (Text.hexChars width n) = [] :=
  numbersIn_of_free (dollar_notMem_hexChars width n)

@[simp] theorem numbersIn_hexChars_append (width : Nat) (n : Int) (rest : List Char) :
    numbersIn (Text.hexChars width n ++ rest) = numbersIn rest :=
  numbersIn_append (dollar_notMem_hexChars width n)

@[simp] theorem numbersIn_toDigits (n : Nat) : numbersIn (Nat.toDigits 10 n) = [] := by
  apply numbersIn_of_free
  intro member
  cases Nat.isDigit_of_mem_toDigits (by decide) (by decide) member

theorem numbersIn_dollar_append (width : Nat) (n : Int) (ends : rest.takeWhile isNumberChar = []) :
    numbersIn ('$' :: (Text.hexChars width n ++ rest)) = .ok n :: numbersIn rest := by
  rw [numbersIn, if_pos rfl, numbersIn_hexChars_append,
    List.takeWhile_append_of_pos fun _ => isNumberChar_of_mem_hexChars, ends, List.append_nil,
    parseAddress_hexChars]

/-- A number in a text is read as what it is the text of. -/
@[simp] theorem numbersIn_dollar (width : Nat) (n : Int) (ends : isNumberChar c = false) :
    numbersIn ('$' :: (Text.hexChars width n ++ c :: rest)) = .ok n :: numbersIn (c :: rest) :=
  numbersIn_dollar_append width n (List.takeWhile_cons_of_neg (by simp [ends]))

@[simp] theorem numbersIn_last (width : Nat) (n : Int) :
    numbersIn ('$' :: Text.hexChars width n) = [.ok n] := by
  have last : numbersIn ('$' :: (Text.hexChars width n ++ [])) = .ok n :: numbersIn [] :=
    numbersIn_dollar_append width n rfl
  rw [List.append_nil] at last
  exact last

/-! ### What is shown -/

def Cause.numbers : Cause → List Int
  | unknownOpcode opcode => [opcode]
  | stackUnderflow => []
  | addressOutOfRange access => [access.address, access.size]

theorem numbersIn_cause (c : Cause) : numbersIn c.text.toList = c.numbers.map .ok := by
  cases c <;> simp (disch := decide) [Cause.text, Cause.numbers, Text.hex, Listing.toString_eq]

theorem numbersIn_fault (f : Fault) :
    numbersIn f.message.toList = (f.pc.toList ++ f.cause.numbers).map .ok := by
  obtain ⟨cause, pc, opcode⟩ := f
  cases pc <;> simp (disch := decide) [Fault.message, Text.hex, Listing.toString_eq, numbersIn_cause]

def StopReason.numbers : StopReason → List Int
  | breakpoint pc => [pc]
  | write address value => [value, address]
  | _ => []

theorem numbersIn_stop (r : StopReason) : numbersIn r.text.toList = r.numbers.map .ok := by
  cases r <;> simp (disch := decide) [StopReason.text, StopReason.numbers, Text.hex, Listing.toString_eq]

def Operand.numbers : Operand → List Int
  | byte value => [value.toNat]
  | address target => [target.val]
  | _ => []

def Instruction.numbers (i : Instruction) : List Int :=
  i.line.operands.flatMap Operand.numbers

theorem numbersIn_instruction (i : Instruction) : numbersIn i.text.toList = i.numbers.map .ok := by
  cases i <;>
    simp (disch := decide) [Instruction.text, Instruction.numbers, Instruction.line, Operand.numbers,
      Instruction.byteText, Address.text, Register.text, Text.hex, Listing.toString_eq]

def Word.numbers (w : Word) : List Int :=
  match Instruction.decode w with
  | some i => i.numbers
  | none => [w.toNat]

theorem numbersIn_word (w : Word) : numbersIn w.text.toList = w.numbers.map .ok := by
  rw [Word.text, Word.numbers]
  cases Instruction.decode w with
  | some i => exact numbersIn_instruction i
  | none => simp (disch := decide) [Text.hex]

def Listing.Row.numbers : Row → List Int
  | word high low => (Word.ofBytes high low).numbers
  | byte b => [b.toNat]

theorem numbersIn_line (showBytes : Bool) (address : Int) (row : Listing.Row) :
    numbersIn (row.line showBytes address).toList = (address :: row.numbers).map .ok := by
  cases row <;> cases showBytes <;>
    simp (disch := decide) [Listing.Row.line, Listing.wordLine, Listing.byteLine,
      Listing.Row.numbers, Text.hex, Listing.toString_eq, numbersIn_word]

theorem numbersIn_listing (data : List UInt8) (address : Int) (count : Option Int)
    (showBytes : Bool) :
    (Listing.ofBytes data address count showBytes).map (numbersIn ·.toList) =
      (Listing.listed data count).mapIdx fun j row =>
        ((address + 2 * (j : Int)) :: row.numbers).map .ok := by
  refine List.ext_getElem? fun j => ?_
  rw [List.getElem?_map, List.getElem?_mapIdx, Listing.getElem?_ofBytes_eq, Option.map_map]
  exact Option.map_congr fun row _ => numbersIn_line showBytes (address + 2 * j) row

/-- An address is read back from hexadecimal columns of any width behind `$`, from hexadecimal
digits behind `0x` in letters of either case and with any zeros in front, and from its decimal text
unless that has too many digits. So each number that a line of a listing, a fault or a stop shows
can be given as an address. -/
theorem addresses_read_back :
    (∀ (width : Nat) (n : Int), parseAddress ("$" ++ Text.hex width n) = .ok n) ∧
    (∀ (n zeros : Nat) (x : Char) (cs : List Char), x = 'x' ∨ x = 'X' →
      SameLetters cs (List.replicate zeros '0' ++ Text.hexDigits n) →
      parseAddress (String.ofList ('0' :: x :: cs)) = .ok n) ∧
    (∀ n : Int, parseAddress (toString n) = .ok n ↔ (toString n.natAbs).length ≤ 4300) ∧
    (∀ (data : List UInt8) (address : Int) (count : Option Int) (showBytes : Bool),
      (Listing.ofBytes data address count showBytes).map (numbersIn ·.toList) =
        (Listing.listed data count).mapIdx fun j row =>
          ((address + 2 * (j : Int)) :: row.numbers).map .ok) ∧
    (∀ f : Fault, numbersIn f.message.toList = (f.pc.toList ++ f.cause.numbers).map .ok) ∧
    ∀ r : StopReason, numbersIn r.text.toList = r.numbers.map .ok := by
  refine ⟨parseAddress_hex, ?_, parseAddress_decimal, numbersIn_listing, numbersIn_fault,
    numbersIn_stop⟩
  intro n zeros x cs isMark same
  exact parseAddress_marked isMark same

/-- A number with a zero in front and letters of both cases, and one with a sign. -/
theorem addresses_read_back_mixedCase :
    SameLetters ['0', 'f', 'F'] (List.replicate 1 '0' ++ Text.hexDigits 255) ∧
      parseAddress (String.ofList ['0', 'X', '0', 'f', 'F']) = .ok 255 ∧
      (toString (-17 : Int).natAbs).length ≤ 4300 ∧ parseAddress (toString (-17 : Int)) = .ok (-17) := by
  obtain ⟨-, marked, decimal, -⟩ := addresses_read_back
  have digits : Text.hexDigits 255 = ['F', 'F'] := by
    rw [Text.hexDigits_of_ge (by decide), Text.hexDigits_of_lt (by decide)]
    rfl
  have same : SameLetters ['0', 'f', 'F'] (List.replicate 1 '0' ++ Text.hexDigits 255) := by
    rw [digits]
    decide
  have short : (toString (-17 : Int).natAbs).length ≤ 4300 := by
    rw [Numeral.length_toString]
    decide
  exact ⟨same, marked 255 1 'X' ['0', 'f', 'F'] (.inr rfl) same, short, (decimal (-17)).2 short⟩

end Chip8
