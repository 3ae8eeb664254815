import Mathlib.Data.List.Basic
import Chip8.Listing

/-! The columns of listings.

A listing is made of rows, each of a word or of a last byte that is left over. A line shows the
address of its row, the bytes of the row in hexadecimal, and their text. The hexadecimal columns of
all lines are the listed bytes, so nothing is lost. A listing without raw bytes is the same listing
without that column, except that a byte that is left over keeps it.
-/

set_option autoImplicit false

namespace Chip8

/-! ### Rows -/

inductive Listing.Row where
  | word (high low : UInt8)
  -- A last byte that is no half of a word.
  | byte (b : UInt8)

namespace Listing.Row

def bytes : Row → List UInt8
  | word high low => [high, low]
  | byte b => [b]

def text : Row → String
  | word high low => (Word.ofBytes high low).text
  | byte b => "DB $" ++ Text.hex 2 b.toNat

def column : Row → List Char
  | word high low => Text.hexChars 4 (Word.ofBytes high low).toNat
  | byte b => Text.hexChars 2 b.toNat

def padding : Row → List Char
  | word _ _ => [' ', ' ']
  | byte _ => [' ', ' ', ' ', ' ']

def line (showBytes : Bool) (address : Int) : Row → String
  | word high low => wordLine showBytes address (Word.ofBytes high low)
  | byte b => byteLine address b

end Listing.Row

namespace Listing

def rows : List UInt8 → List Row
  | high :: low :: data => .word high low :: rows data
  | [b] => [.byte b]
  | [] => []

theorem length_rows (data : List UInt8) : (rows data).length = (data.length + 1) / 2 := by
  fun_induction rows data with
  | case1 high low data ih =>
    simp only [List.length_cons, ih]
    omega
  | case2 b => simp
  | case3 => rfl

theorem bytes_of_rows {data : List UInt8} {j : Nat} {row : Row}
    (there : (rows data)[j]? = some row) : row.bytes = (data.drop (2 * j)).take 2 := by
  fun_induction rows data generalizing j with
  | case1 high low data ih =>
    cases j with
    | zero =>
      cases there
      rfl
    | succ j => exact ih there
  | case2 b =>
    cases j with
    | zero =>
      cases there
      rfl
    | succ j => cases there
  | case3 => cases there

theorem bytes_eq_mapIdx (showBytes : Bool) (address : Int) (data : List UInt8) :
    bytes showBytes address data =
      (rows data).mapIdx fun j row => row.line showBytes (address + 2 * j) := by
  fun_induction rows data generalizing address with
  | case1 high low data ih =>
    have behind (j : Nat) : address + 2 + 2 * (j : Int) = address + 2 * (j + 1 : Nat) := by omega
    rw [bytes, ih, List.mapIdx_cons]
    simp [behind, Row.line]
  | case2 b => simp [bytes, Row.line]
  | case3 => rfl

/-! ### Lines -/

variable {row : Row} {address : Int}

/-- A text that is put into a text stands there as it is. -/
theorem toString_eq (text : String) : toString text = text := rfl

theorem toList_line_true (row : Row) (address : Int) :
    (row.line true address).toList = '$' :: (Text.hexChars 3 address ++
      ':' :: ' ' :: (row.column ++ (row.padding ++ row.text.toList))) := by
  cases row <;>
    simp [Row.line, wordLine, byteLine, Row.column, Row.padding, Row.text, Text.hex, toString_eq]

def behindAddress (line : List Char) : List Char :=
  (line.dropWhile (· != ':')).drop 2

def isHexDigit (c : Char) : Bool :=
  Text.hexAlphabet.contains c

def hexColumn (line : String) : List Char :=
  (behindAddress line.toList).takeWhile isHexDigit

/-- A line without its hexadecimal column and the blanks behind that. -/
def withoutBytes (line : String) : String :=
  String.ofList (line.toList.takeWhile (· != ':') ++ ':' :: ' ' ::
    ((behindAddress line.toList).dropWhile isHexDigit).dropWhile (· == ' '))

def ofDigits : List Char → List UInt8
  | high :: low :: digits => UInt8.ofNat (Text.hexValue [high, low]) :: ofDigits digits
  | _ => []

theorem no_colon_in_address (address : Int) :
    ∀ c ∈ '$' :: Text.hexChars 3 address, (c != ':') = true := by
  obtain ⟨digits, form, alphabet, -⟩ := Text.isHex_hexChars 3 address
  have digit : Text.hexAlphabet.all (· != ':') = true := by decide
  intro c member
  rw [form, List.mem_cons, List.mem_append] at member
  rcases member with rfl | sign | member
  · decide
  · split at sign
    · obtain rfl := List.mem_singleton.1 sign
      decide
    · cases sign
  · exact List.all_eq_true.1 digit c (alphabet c member)

theorem behindAddress_eq (address : Int) (rest : List Char) :
    behindAddress ('$' :: (Text.hexChars 3 address ++ ':' :: ' ' :: rest)) = rest := by
  rw [behindAddress, ← List.cons_append,
    List.dropWhile_append_of_pos (no_colon_in_address address)]
  rfl

theorem takeWhile_address (address : Int) (rest : List Char) :
    ('$' :: (Text.hexChars 3 address ++ ':' :: rest)).takeWhile (· != ':') =
      '$' :: Text.hexChars 3 address := by
  rw [← List.cons_append, List.takeWhile_append_of_pos (no_colon_in_address address)]
  simp

theorem isHexDigit_of_mem_column {c : Char} (member : c ∈ row.column) : isHexDigit c = true := by
  have digit {width n : Nat} (member : c ∈ Text.hexChars width n) : isHexDigit c = true := by
    rw [← String.toList_ofList (l := Text.hexChars width n), ← Text.hex] at member
    exact List.contains_iff_mem.2 (Text.mem_hexAlphabet_of_mem_hex member)
  cases row with
  | word high low => exact digit member
  | byte b => exact digit member

theorem padding_eq_cons (row : Row) : ∃ blanks, row.padding = ' ' :: blanks := by
  cases row <;> exact ⟨_, rfl⟩

/-- The hexadecimal column of a line shows the bytes of its row. -/
theorem hexColumn_line (row : Row) (address : Int) :
    hexColumn (row.line true address) = row.column := by
  obtain ⟨blanks, padding⟩ := padding_eq_cons row
  rw [hexColumn, toList_line_true, behindAddress_eq,
    List.takeWhile_append_of_pos fun c => isHexDigit_of_mem_column, padding, List.cons_append,
    List.takeWhile_cons_of_neg (by decide), List.append_nil]

/-- No text starts with a blank. -/
theorem head_text (row : Row) : ∃ c cs, row.text.toList = c :: cs ∧ (c == ' ') = false := by
  cases row with
  | byte b => exact ⟨'D', _, String.toList_append, rfl⟩
  | word high low =>
    rw [Row.text, Word.text]
    cases Instruction.decode (Word.ofBytes high low) with
    | none => exact ⟨'D', _, String.toList_append, rfl⟩
    | some i =>
      cases i <;> simp [Instruction.text, toString_eq]

theorem withoutBytes_line (row : Row) (address : Int) :
    withoutBytes (row.line true address) = s!"${Text.hex 3 address}: {row.text}" := by
  obtain ⟨c, cs, text, letter⟩ := head_text row
  obtain ⟨blanks, padding⟩ := padding_eq_cons row
  have blank : ∀ c ∈ row.padding, (c == ' ') = true := by
    cases row <;> simp [Row.padding]
  apply String.toList_injective
  rw [withoutBytes, toList_line_true, behindAddress_eq, takeWhile_address,
    List.dropWhile_append_of_pos fun c => isHexDigit_of_mem_column]
  -- The column ends at the first blank, and the blanks at the text.
  have column : (row.padding ++ row.text.toList).dropWhile isHexDigit =
      row.padding ++ row.text.toList := by
    rw [padding, List.cons_append, List.dropWhile_cons_of_neg (by decide)]
  rw [column, List.dropWhile_append_of_pos blank, text,
    List.dropWhile_cons_of_neg (by simp [letter]), ← text]
  simp [Text.hex, toString_eq]

/-! ### Counts -/

def IsFull (count : Option Int) (lines : List String) : Prop :=
  ∃ n ∈ count, n ≤ lines.length

instance (count : Option Int) (lines : List String) : Decidable (IsFull count lines) :=
  inferInstanceAs (Decidable (∃ n ∈ count, n ≤ lines.length))

/-- Put lines behind those that are there, one by one until these are as many as a count allows. -/
def gather (count : Option Int) (showBytes : Bool) :
    (lines : List String) → (address : Int) → List UInt8 → List String
  | lines, address, high :: low :: data =>
    if IsFull count lines then lines
    else gather count showBytes
      (lines ++ [wordLine showBytes address (Word.ofBytes high low)]) (address + 2) data
  | lines, address, [b] => if IsFull count lines then lines else lines ++ [byteLine address b]
  | lines, _, [] => lines

theorem gather_none (showBytes : Bool) (lines : List String) (address : Int) (data : List UInt8) :
    gather none showBytes lines address data = lines ++ bytes showBytes address data := by
  have free (lines : List String) : ¬ IsFull none lines := nofun
  fun_induction bytes showBytes address data generalizing lines with
  | case1 address high low data ih =>
    rw [gather, if_neg (free lines), ih, List.append_assoc, List.singleton_append]
  | case2 address b => rw [gather, if_neg (free lines)]
  | case3 => rw [gather, List.append_nil]

theorem isFull_some {n : Int} {lines : List String} : IsFull (some n) lines ↔ n ≤ lines.length := by
  simp [IsFull]

theorem gather_some (n : Int) (showBytes : Bool) (lines : List String) (address : Int)
    (data : List UInt8) :
    gather (some n) showBytes lines address data =
      lines ++ (bytes showBytes address data).take (n - lines.length).toNat := by
  have nothing {lines : List String} (full : n ≤ lines.length) (rest : List String) :
      lines ++ rest.take (n - lines.length).toNat = lines := by
    rw [show (n - lines.length).toNat = 0 by omega, List.take_zero, List.append_nil]
  fun_induction bytes showBytes address data generalizing lines with
  | case1 address high low data ih =>
    rw [gather]
    by_cases full : n ≤ lines.length
    · rw [if_pos (isFull_some.2 full), nothing full]
    · rw [if_neg (mt isFull_some.1 full), ih, List.length_append, List.length_singleton]
      have room : (n - lines.length).toNat = (n - (lines.length + 1 : Nat)).toNat + 1 := by omega
      rw [room, List.take_succ_cons, List.append_assoc, List.singleton_append]
  | case2 address b =>
    rw [gather]
    by_cases full : n ≤ lines.length
    · rw [if_pos (isFull_some.2 full), nothing full]
    · have room : 1 ≤ (n - lines.length).toNat := by omega
      rw [if_neg (mt isFull_some.1 full), List.take_of_length_le room]
  | case3 => rw [gather, List.take_nil, List.append_nil]

/-! ### Reading a listing -/

def digits (data : List UInt8) : List Char :=
  data.flatMap fun b => Text.hexChars 2 b.toNat

theorem column_eq (row : Row) : row.column = digits row.bytes := by
  cases row with
  | word high low =>
    rw [Row.column, Word.toNat_ofBytes, Text.hexChars_word]
    simp [digits, Row.bytes]
  | byte b => simp [Row.column, digits, Row.bytes]

/-- The first two digits stand for the first byte. -/
theorem exists_digits_cons (b : UInt8) (data : List UInt8) :
    ∃ high low, digits (b :: data) = high :: low :: digits data ∧
      UInt8.ofNat (Text.hexValue [high, low]) = b := by
  have two : (Text.hex 2 b.toNat).toList.length = 2 := Text.length_hex b.toNat_lt
  have value : Text.hexValue (Text.hex 2 b.toNat).toList = b.toNat := Text.hexValue_hex 2 b.toNat
  rw [Text.hex, String.toList_ofList] at two value
  obtain ⟨high, low, pair⟩ := List.length_eq_two.1 two
  rw [pair] at value
  refine ⟨high, low, ?_, by rw [value, UInt8.ofNat_toNat]⟩
  rw [digits, List.flatMap_cons, pair]
  rfl

theorem length_digits (data : List UInt8) : (digits data).length = 2 * data.length := by
  induction data with
  | nil => rfl
  | cons b data ih =>
    obtain ⟨high, low, pair, -⟩ := exists_digits_cons b data
    rw [pair, List.length_cons, List.length_cons, List.length_cons, ih]
    omega

theorem ofDigits_digits (data : List UInt8) : ofDigits (digits data) = data := by
  induction data with
  | nil => rfl
  | cons b data ih =>
    obtain ⟨high, low, pair, value⟩ := exists_digits_cons b data
    rw [pair, ofDigits, value, ih]

theorem flatMap_hexColumn (address : Int) (data : List UInt8) :
    (bytes true address data).flatMap hexColumn = digits data := by
  have column (row : Row) (address : Int) :
      hexColumn (row.line true address) = digits row.bytes := by
    rw [hexColumn_line, column_eq]
  fun_induction rows data generalizing address with
  | case1 high low data ih =>
    have first : hexColumn (wordLine true address (Word.ofBytes high low)) = digits [high, low] :=
      column (.word high low) address
    rw [bytes, List.flatMap_cons, first, ih]
    simp [digits]
  | case2 b =>
    have last : hexColumn (byteLine address b) = digits [b] := column (.byte b) address
    rw [bytes, List.flatMap_singleton, last]
  | case3 => rfl

/-- A line shows an address and behind it, in hexadecimal, the bytes that lie there. -/
structure Displays (line : String) (address : Int) (data : List UInt8) : Prop where
  address : ∃ place rest, Text.IsHex 3 address place ∧
    line.toList = '$' :: (place ++ ':' :: ' ' :: rest)
  column : hexColumn line = digits data

theorem displays_line (row : Row) (address : Int) :
    Displays (row.line true address) address row.bytes where
  address := ⟨_, _, Text.isHex_hexChars 3 address, toList_line_true row address⟩
  column := by rw [hexColumn_line, column_eq]

/-! ### What is left of a listing -/

def listed (data : List UInt8) (count : Option Int) : List Row :=
  match count with
  | none => rows data
  | some n => (rows data).take n.toNat

theorem getElem?_listed {data : List UInt8} {count : Option Int} {j : Nat} {row : Row} :
    (listed data count)[j]? = some row ↔
      (rows data)[j]? = some row ∧ ∀ n ∈ count, (j : Int) < n := by
  cases count with
  | none => simp [listed]
  | some n =>
    rw [listed, List.getElem?_take]
    by_cases shown : j < n.toNat
    · rw [if_pos shown]
      simp only [Option.mem_some_iff, forall_eq', iff_self_and]
      omega
    · rw [if_neg shown]
      simp only [reduceCtorEq, false_iff, Option.mem_some_iff, forall_eq', not_and]
      omega

theorem getElem?_ofBytes_eq (data : List UInt8) (address : Int) (count : Option Int)
    (showBytes : Bool) (j : Nat) :
    (ofBytes data address count showBytes)[j]? =
      (listed data count)[j]?.map (Row.line showBytes (address + 2 * j)) := by
  cases count with
  | none => rw [ofBytes, limit, listed, bytes_eq_mapIdx, List.getElem?_mapIdx]
  | some n =>
    rw [ofBytes, limit, listed, bytes_eq_mapIdx, List.getElem?_take, List.getElem?_take,
      List.getElem?_mapIdx]
    split <;> rfl

theorem displays_of_getElem? {data : List UInt8} {address : Int} {j : Nat} {line : String}
    (there : (ofBytes data address none true)[j]? = some line) :
    Displays line (address + 2 * j) ((data.drop (2 * j)).take 2) := by
  rw [getElem?_ofBytes_eq] at there
  obtain ⟨row, shown, rfl⟩ := Option.map_eq_some_iff.1 there
  rw [← bytes_of_rows shown]
  exact displays_line row (address + 2 * j)

/-- A listing with raw bytes loses nothing: each line shows the address and the digits of its bytes,
four of a word and two of a last byte, and all digits together are those of the bytes. So different
bytes have different listings. A count keeps that many lines from the front, of either listing: it
makes no difference whether lines are left out or not made at all. -/
theorem loses_nothing :
    (∀ (data : List UInt8) (address : Int),
      (ofBytes data address none true).length = (data.length + 1) / 2 ∧
      (∀ (j : Nat) line, (ofBytes data address none true)[j]? = some line →
        Displays line (address + 2 * j) ((data.drop (2 * j)).take 2) ∧
          (hexColumn line).length = if 2 * j + 1 < data.length then 4 else 2) ∧
      (ofBytes data address none true).flatMap hexColumn = digits data ∧
      ofDigits (digits data) = data) ∧
    (∀ (data other : List UInt8) (address place : Int),
      ofBytes data address none true = ofBytes other place none true → data = other) ∧
    ∀ (data : List UInt8) (address : Int) (showBytes : Bool),
      (∀ count, ofBytes data address count showBytes = gather count showBytes [] address data) ∧
      ∀ n, ofBytes data address (some n) showBytes =
        (ofBytes data address none showBytes).take (max n 0).toNat := by
  refine ⟨fun data address => ?_, ?_, ?_⟩
  · refine ⟨length_bytes true address data, ?_, flatMap_hexColumn address data,
      ofDigits_digits data⟩
    intro j line there
    have shown := displays_of_getElem? there
    refine ⟨shown, ?_⟩
    have inside : j < (bytes true address data).length := (List.getElem?_eq_some_iff.1 there).1
    rw [length_bytes] at inside
    rw [shown.column, length_digits, List.length_take, List.length_drop]
    split <;> omega
  · intro data other address place same
    have columns := congrArg (List.flatMap hexColumn) same
    rw [ofBytes, ofBytes, limit, limit, flatMap_hexColumn, flatMap_hexColumn] at columns
    rw [← ofDigits_digits data, columns, ofDigits_digits]
  · intro data address showBytes
    refine ⟨fun count => ?_, fun n => ?_⟩
    · cases count with
      | none => rw [gather_none, List.nil_append, ofBytes, limit]
      | some n =>
        rw [gather_some, List.nil_append, List.length_nil, ofBytes, limit, Int.natCast_zero,
          Int.sub_zero]
    · rw [ofBytes, limit, ofBytes, limit, show (max n 0).toNat = n.toNat by omega]

def wordAndByte : List UInt8 :=
  [0x60, 0x05, 0xAB]

/-- The two lines of a word and a byte, of which a count of one keeps the first. -/
theorem loses_nothing_wordAndByte :
    ofBytes wordAndByte 0x200 none true = ["$200: 6005  LD V0, $05", "$202: AB    DB $AB"] ∧
      Displays "$202: AB    DB $AB" 0x202 [0xAB] ∧ (hexColumn "$202: AB    DB $AB").length = 2 ∧
      (ofBytes wordAndByte 0x200 none true).flatMap hexColumn = ['6', '0', '0', '5', 'A', 'B'] ∧
      (∀ other, ofBytes wordAndByte 0x200 none true = ofBytes other 0x200 none true →
        wordAndByte = other) ∧
      ofBytes wordAndByte 0x200 (some 1) true = ["$200: 6005  LD V0, $05"] := by
  obtain ⟨shows, tells, counts⟩ := loses_nothing
  have lines : ofBytes wordAndByte 0x200 none true =
      ["$200: 6005  LD V0, $05", "$202: AB    DB $AB"] := by decide +kernel
  obtain ⟨-, display, columns, -⟩ := shows wordAndByte 0x200
  obtain ⟨last, width⟩ := display 1 "$202: AB    DB $AB" (by rw [lines]; rfl)
  refine ⟨lines, last, width, columns.trans (by decide +kernel), ?_, ?_⟩
  · exact fun other same => tells wordAndByte other 0x200 0x200 same
  · rw [(counts wordAndByte 0x200 true).2 1, lines]
    rfl

/-! ### Listings without raw bytes -/

/-- A byte that is left over has a line. -/
def ShowsOddByte (data : List UInt8) (count : Option Int) : Prop :=
  data.length % 2 = 1 ∧ ∀ n ∈ count, (data.length / 2 : Nat) < n

theorem bytes_of_word {data : List UInt8} {j : Nat} {high low : UInt8}
    (there : (rows data)[j]? = some (.word high low)) :
    data[2 * j]? = some high ∧ data[2 * j + 1]? = some low := by
  have shown : [high, low] = (data.drop (2 * j)).take 2 := bytes_of_rows there
  have first := congrArg (·[0]?) shown
  have second := congrArg (·[1]?) shown
  simp only [List.getElem?_take, List.getElem?_drop] at first second
  exact ⟨first.symm, second.symm⟩

theorem length_of_byte {data : List UInt8} {j : Nat} {b : UInt8}
    (there : (rows data)[j]? = some (.byte b)) : data.length = 2 * j + 1 := by
  have shown : [b] = (data.drop (2 * j)).take 2 := bytes_of_rows there
  have one := congrArg List.length shown
  rw [List.length_singleton, List.length_take, List.length_drop] at one
  omega

/-- The row of a byte that is left over is the last one. -/
theorem exists_byte_listed {data : List UInt8} {count : Option Int} {j : Nat} :
    (∃ b, (listed data count)[j]? = some (.byte b)) ↔
      ShowsOddByte data count ∧ j = data.length / 2 := by
  constructor
  · rintro ⟨b, there⟩
    obtain ⟨there, shown⟩ := getElem?_listed.1 there
    have odd := length_of_byte there
    refine ⟨⟨by omega, fun n limits => ?_⟩, by omega⟩
    have := shown n limits
    omega
  · rintro ⟨⟨parity, shown⟩, rfl⟩
    have inside : data.length / 2 < (rows data).length := by
      rw [length_rows]
      omega
    have there := List.getElem?_eq_getElem inside
    cases row : (rows data)[data.length / 2] with
    | byte b => exact ⟨b, getElem?_listed.2 ⟨row ▸ there, shown⟩⟩
    | word high low =>
      -- A word would need a byte behind the last one.
      rw [row] at there
      obtain ⟨-, second⟩ := bytes_of_word there
      have := (List.getElem?_eq_some_iff.1 second).1
      omega

theorem withoutBytes_byteLine_ne (address : Int) (b : UInt8) :
    withoutBytes (byteLine address b) ≠ byteLine address b := by
  intro same
  have short : withoutBytes (byteLine address b) =
      s!"${Text.hex 3 address}: {(Row.byte b).text}" := withoutBytes_line (.byte b) address
  have sizes := congrArg String.length (short.symm.trans same)
  have widths : "DB $".length = 4 ∧ "    DB $".length = 8 := by decide
  simp only [byteLine, Row.text, toString_eq, String.length_append] at sizes
  omega

theorem line_omits_iff (data : List UInt8) (address : Int) (count : Option Int) (j : Nat) :
    (ofBytes data address count false)[j]? =
        (ofBytes data address count true)[j]?.map withoutBytes ↔
      ¬ (ShowsOddByte data count ∧ j = data.length / 2) := by
  rw [← exists_byte_listed, getElem?_ofBytes_eq, getElem?_ofBytes_eq]
  cases (listed data count)[j]? with
  | none => simp
  | some row =>
    cases row with
    | word high low =>
      refine iff_of_true ?_ nofun
      rw [Option.map_some, Option.map_some, Option.map_some, withoutBytes_line]
      rfl
    | byte b =>
      refine iff_of_false (fun same => ?_) (not_not_intro ⟨b, rfl⟩)
      exact withoutBytes_byteLine_ne _ b (Option.some.inj same).symm

/-- Omitting raw bytes omits only these, in every line but that of a byte that is left over; so in
the whole listing exactly if no such byte has a line. Each other line is an address and the text of
the word that lies there. -/
theorem omits_only_bytes (data : List UInt8) (address : Int) (count : Option Int) :
    (∀ j : Nat, (ofBytes data address count false)[j]? =
        (ofBytes data address count true)[j]?.map withoutBytes ↔
      ¬ (ShowsOddByte data count ∧ j = data.length / 2)) ∧
    (ofBytes data address count false = (ofBytes data address count true).map withoutBytes ↔
      ¬ ShowsOddByte data count) ∧
    ∀ (j : Nat) line, (ofBytes data address count false)[j]? = some line →
      ¬ (ShowsOddByte data count ∧ j = data.length / 2) →
      ∃ high low, data[2 * j]? = some high ∧ data[2 * j + 1]? = some low ∧
        line = s!"${Text.hex 3 (address + 2 * j)}: {(Word.ofBytes high low).text}" := by
  refine ⟨line_omits_iff data address count, ⟨fun same odd => ?_, fun whole => ?_⟩, ?_⟩
  · refine (line_omits_iff data address count (data.length / 2)).1 ?_ ⟨odd, rfl⟩
    rw [same, List.getElem?_map]
  · apply List.ext_getElem?
    intro j
    rw [List.getElem?_map]
    exact (line_omits_iff data address count j).2 fun odd => whole odd.1
  · intro j line there whole
    rw [getElem?_ofBytes_eq] at there
    obtain ⟨row, shown, rfl⟩ := Option.map_eq_some_iff.1 there
    cases row with
    | byte b => exact absurd (exists_byte_listed.1 ⟨b, shown⟩) whole
    | word high low =>
      obtain ⟨first, second⟩ := bytes_of_word (getElem?_listed.1 shown).1
      exact ⟨high, low, first, second, rfl⟩

/-- The first of the two lines of a word and a byte has the word alone. -/
theorem omits_only_bytes_firstLine :
    ¬ ShowsOddByte wordAndByte (some 1) ∧
      ofBytes wordAndByte 0x200 (some 1) false = ["$200: LD V0, $05"] ∧
      ofBytes wordAndByte 0x200 (some 1) false =
        (ofBytes wordAndByte 0x200 (some 1) true).map withoutBytes ∧
      ¬ (ShowsOddByte wordAndByte none ∧ 0 = wordAndByte.length / 2) ∧
      (ofBytes wordAndByte 0x200 none false)[0]? = some "$200: LD V0, $05" ∧
      ∃ high low, wordAndByte[0]? = some high ∧ wordAndByte[1]? = some low ∧
        "$200: LD V0, $05" = s!"${Text.hex 3 0x200}: {(Word.ofBytes high low).text}" := by
  have whole : ¬ ShowsOddByte wordAndByte (some 1) := fun odd => absurd (odd.2 1 rfl) (by decide)
  have lines : ofBytes wordAndByte 0x200 (some 1) false = ["$200: LD V0, $05"] := by decide +kernel
  have first : ¬ (ShowsOddByte wordAndByte none ∧ 0 = wordAndByte.length / 2) :=
    fun odd => absurd odd.2 (by decide)
  have shown : (ofBytes wordAndByte 0x200 none false)[0]? = some "$200: LD V0, $05" := by
    decide +kernel
  have same := (omits_only_bytes wordAndByte 0x200 (some 1)).2.1
  have form := (omits_only_bytes wordAndByte 0x200 none).2.2
  exact ⟨whole, lines, same.2 whole, first, shown, form 0 _ shown first⟩

/-- The line of a byte that is left over keeps its column. -/
theorem odd_byte_keeps_column :
    ofBytes wordAndByte 0x200 none false = ["$200: LD V0, $05", "$202: AB    DB $AB"] ∧
      (ofBytes wordAndByte 0x200 none true).map withoutBytes =
        ["$200: LD V0, $05", "$202: DB $AB"] ∧
      ofBytes wordAndByte 0x200 none false ≠
        (ofBytes wordAndByte 0x200 none true).map withoutBytes := by
  decide +kernel

end Listing

end Chip8
