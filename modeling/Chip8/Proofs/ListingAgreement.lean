import Chip8.CommandLine.Disassemble
import Chip8.Proofs.Request

/-! Two ways to list bytes, which agree.

An emulator lists the words of its memory from an address on, and the command lists the bytes of a
file. Of the same bytes both show the same words, at the same addresses and as many as are asked
for. Only the command shows a last byte that is no half of a word.
-/

set_option autoImplicit false

namespace Chip8

/-! ### Listings -/

namespace Listing

/-- The line of a last byte that is no half of a word, if there is one. -/
def oddByte (address : Int) (data : List UInt8) : List String :=
  match data.getLast? with
  | none => []
  | some b => if data.length % 2 = 1 then [byteLine (address + (data.length - 1)) b] else []

theorem oddByte_of_even {address : Int} {data : List UInt8} (even : data.length % 2 = 0) :
    oddByte address data = [] := by
  unfold oddByte
  cases data.getLast? with
  | none => rfl
  | some b => exact if_neg (by omega)

theorem length_oddByte_le (address : Int) (data : List UInt8) :
    (oddByte address data).length ≤ 1 := by
  unfold oddByte
  cases data.getLast? with
  | none => exact Nat.zero_le 1
  | some b =>
    dsimp only
    split
    · exact Nat.le_refl 1
    · exact Nat.zero_le 1

theorem oddByte_cons_cons (address : Int) (high low : UInt8) (data : List UInt8) :
    oddByte address (high :: low :: data) = oddByte (address + 2) data := by
  cases data with
  | nil => simp [oddByte]
  | cons b data =>
    -- The last byte is the same one, and as far from the new address as it was.
    have parity : (high :: low :: b :: data).length % 2 = (b :: data).length % 2 := by
      simp only [List.length_cons]
      omega
    have place : address + ((high :: low :: b :: data).length - 1 : Int) =
        address + 2 + ((b :: data).length - 1 : Int) := by
      simp only [List.length_cons]
      omega
    simp only [oddByte, List.getLast?_cons_cons, parity, place]

theorem bytes_eq_append (showBytes : Bool) (address : Int) (data : List UInt8) :
    bytes showBytes address data = words showBytes address data ++ oddByte address data := by
  fun_induction bytes showBytes address data with
  | case1 address high low data ih => rw [ih, words, oddByte_cons_cons, List.cons_append]
  | case2 address b => simp [words, oddByte]
  | case3 => rfl

/-- The listing up to a count. The last byte that is no half of a word counts as a line. -/
theorem ofBytes_eq_append (data : List UInt8) (address count : Int) (showBytes : Bool) :
    ofBytes data address (some count) showBytes =
      (words showBytes address data).take count.toNat ++
        if (data.length + 1) / 2 ≤ count then oddByte address data else [] := by
  rw [ofBytes, limit, bytes_eq_append, List.take_append, length_words]
  by_cases even : data.length % 2 = 0
  · simp [oddByte_of_even even]
  · by_cases reached : (data.length + 1) / 2 ≤ count
    · have one := length_oddByte_le address data
      have shown : (oddByte address data).take (count.toNat - data.length / 2) =
          oddByte address data := List.take_of_length_le (by omega)
      rw [if_pos reached, shown]
    · rw [if_neg reached]
      have none : count.toNat - data.length / 2 = 0 := by omega
      rw [none, List.take_zero]

theorem ofBytes_of_even {data : List UInt8} (even : data.length % 2 = 0) (address : Int)
    (showBytes : Bool) : ofBytes data address none showBytes = words showBytes address data := by
  rw [ofBytes, limit, bytes_eq_append, oddByte_of_even even, List.append_nil]

theorem words_append (showBytes : Bool) {address : Int} {data : List UInt8}
    (even : data.length % 2 = 0) (rest : List UInt8) :
    words showBytes address (data ++ rest) =
      words showBytes address data ++ words showBytes (address + data.length) rest := by
  fun_induction words showBytes address data with
  | case1 address high low data ih =>
    have place : address + ((high :: low :: data).length : Int) = address + 2 + data.length := by
      simp only [List.length_cons]
      omega
    have rest_even : data.length % 2 = 0 := by
      simp only [List.length_cons] at even
      omega
    rw [place, List.cons_append, List.cons_append, List.cons_append, ← ih rest_even, words]
  | case2 address b => simp at even
  | case3 address => simp

/-- Put the lines of words behind those that are there, one for each turn that is left, until no
whole word lies at the place. -/
def gatherWords (data : List UInt8) :
    (turns : Nat) → (lines : List String) → (place : Nat) → List String
  | 0, lines, _ => lines
  | turns + 1, lines, place =>
    if whole : place + 1 < data.length then
      let w := Word.ofBytes (data.get ⟨place, Nat.lt_of_succ_lt whole⟩) (data.get ⟨place + 1, whole⟩)
      gatherWords data turns (lines ++ [wordLine true place w]) (place + 2)
    else lines

theorem gatherWords_eq (data : List UInt8) (turns : Nat) (lines : List String) (place : Nat) :
    gatherWords data turns lines place =
      lines ++ (words true place (data.drop place)).take turns := by
  induction turns generalizing lines place with
  | zero => rw [gatherWords, List.take_zero, List.append_nil]
  | succ turns ih =>
    rw [gatherWords]
    by_cases whole : place + 1 < data.length
    · have split := List.drop_eq_getElem_cons (Nat.lt_of_succ_lt whole)
      rw [List.drop_eq_getElem_cons whole] at split
      rw [dif_pos whole, ih, split, words, List.take_succ_cons, List.append_assoc,
        List.singleton_append]
      rfl
    · -- What is left is no whole word, so it has no lines.
      have short : (words true place (data.drop place)).length = 0 := by
        rw [length_words, List.length_drop]
        omega
      rw [dif_neg whole, List.eq_nil_of_length_eq_zero short, List.take_nil, List.append_nil]

end Listing

/-! ### Memory -/

/-- What lies from an address on after bytes were stored there: the bytes, and what was behind. -/
theorem drop_storeFrom {size : Nat} (cells : Vector UInt8 size) {start : Nat} {data : List UInt8}
    (fits : start + data.length ≤ size) :
    (storeFrom cells start data).toList.drop start =
      data ++ cells.toList.drop (start + data.length) := by
  apply List.ext_getElem
  · simp only [List.length_drop, Vector.length_toList, List.length_append]
    omega
  · intro k here there
    have inside : start + k < size := by
      simp only [List.length_drop, Vector.length_toList] at here
      omega
    rw [List.getElem_drop, Vector.getElem_toList, getElem_storeFrom _ _ _ _ inside,
      if_pos (Nat.le_add_right start k), Nat.add_sub_cancel_left]
    by_cases among : k < data.length
    · rw [List.getElem_append_left among, List.getElem?_eq_getElem among, Option.getD_some]
    · -- Behind the stored bytes, the cells are those that were there.
      have behind : start + data.length + (k - data.length) = start + k := by omega
      rw [List.getElem_append_right (by omega), List.getElem?_eq_none (by omega), Option.getD_none,
        List.getElem_drop, Vector.getElem_toList]
      simp only [behind]

namespace Emulator

variable {e : Emulator}

def bytesFrom (e : Emulator) (address : Int) : List UInt8 :=
  e.machine.memory.bytes.toList.drop address.toNat

theorem disassemble_eq {address : Int} (inside : 0 ≤ address) (count : Int) :
    e.disassemble address count =
      .ok ((Listing.words true address (e.bytesFrom address)).take count.toNat) := by
  rw [disassemble, if_neg (by omega), bytesFrom]

def disassembleEach (e : Emulator) (address count : Int) : Except OutOfRange (List String) :=
  if address < 0 then .error ⟨address, memorySize⟩
  else .ok (Listing.gatherWords e.machine.memory.bytes.toList count.toNat [] address.toNat)

theorem disassemble_eq_each (e : Emulator) (address count : Int) :
    e.disassemble address count = e.disassembleEach address count := by
  rw [disassemble, disassembleEach]
  by_cases outside : address < 0
  · rw [if_pos outside, if_pos outside]
  · have place : (address.toNat : Int) = address := Int.toNat_of_nonneg (Int.not_lt.1 outside)
    rw [if_neg outside, if_neg outside, Listing.gatherWords_eq, List.nil_append, place]

theorem bytesFrom_loadProgram {data : List UInt8} {name : String} {left : Emulator}
    (loaded : e.loadProgram data name = .ok left) :
    left.bytesFrom programStart = data ++ e.bytesFrom (programStart + data.length) := by
  obtain ⟨fits, rfl⟩ := loadProgram_ok loaded
  have inside : programStart + data.length ≤ memorySize := by
    rw [maxProgramSize, programStart, memorySize] at fits
    rw [programStart, memorySize]
    omega
  exact drop_storeFrom e.machine.memory.bytes inside

theorem ne_nil_of_loadProgram {data : List UInt8} {name : String} {left : Emulator}
    (loaded : e.loadProgram data name = .ok left) : data ≠ [] := by
  rintro rfl
  cases loaded

theorem disassemble_loadProgram {data : List UInt8} {name : String} {left : Emulator}
    (loaded : e.loadProgram data name = .ok left) (even : data.length % 2 = 0) :
    left.disassemble programStart (data.length / 2 : Nat) =
      .ok (Listing.ofBytes data programStart none true) := by
  have all : (Listing.words true programStart data).length = data.length / 2 :=
    Listing.length_words true programStart data
  rw [disassemble_eq (Int.natCast_nonneg programStart), bytesFrom_loadProgram loaded,
    Listing.words_append true even, Int.toNat_natCast, List.take_left' all,
    Listing.ofBytes_of_even even]

end Emulator

/-! ### The command -/

namespace CommandLine

theorem Console.out_noteLine (c : Console) (verbose : Bool) (text : String) :
    (c.noteLine verbose text).out = c.out := by
  unfold noteLine
  split <;> rfl

theorem Console.made_noteLine (c : Console) (verbose : Bool) (text : String) :
    (c.noteLine verbose text).made = c.made := by
  unfold noteLine
  split <;> rfl

namespace Disassemble

variable {files : Files} {o : Options} {data : List UInt8}

structure Options.IsWhole (o : Options) (files : Files) : Prop where
  address : o.address = "0x200"
  count : o.count = none
  bytes : o.noBytes = false
  writable : ∀ path ∈ o.output, (files (PathText.normal path)).writeError? = none

/-- A text goes where the options say: it is printed, or is all that a file is made of. -/
inductive Issued (o : Options) (text : String) (r : Report) : Prop where
  | printed : o.output = none → r.console.out = Text.ControlSequence.plain text → Issued o text r
  | written {path : String} : o.output = some path →
      r.console.made = [(PathText.normal path, .text text)] → Issued o text r

def sheet (o : Options) (data : List UInt8) (lines : List String) : String :=
  "\n".intercalate (header (PathText.name o.input) data.length programStart ++ lines) ++ "\n"

theorem list_issues (whole : o.IsWhole files) :
    (list o files data programStart).exitCode = 0 ∧
      Issued o (sheet o data (Listing.ofBytes data programStart none true))
        (list o files data programStart) := by
  obtain ⟨-, all, bytes, writable⟩ := whole
  unfold list
  rw [all, bytes]
  cases output : o.output with
  | none =>
    simp only [Option.map_none]
    refine ⟨trivial, .printed output ?_⟩
    simp only [Console.out_noteLine, Console.print]
    exact String.empty_append
  | some path =>
    simp only [Option.map_some, writable path output]
    refine ⟨trivial, .written output ?_⟩
    simp only [Console.made_noteLine]
    rfl

theorem report_issues (whole : o.IsWhole files) (nonempty : data ≠ []) :
    (report o files data).exitCode = 0 ∧
      Issued o (sheet o data (Listing.ofBytes data programStart none true))
        (report o files data) := by
  have usual : parseAddress o.address = .ok programStart := by
    rw [whole.address]
    exact eq_ok_of_toOption (by decide +kernel)
  have lists : report o files data = list o files data programStart := by
    -- An empty file is the one thing that such options do not list.
    have full : data.isEmpty = false := by simpa using nonempty
    simp only [report, usual, full]
    rfl
  rw [lists]
  exact list_issues whole

/-- A path alone asks for the whole listing of a program. -/
theorem request_of_path {path : String} (bare : path.toList.head? ≠ some '-')
    (found : files path = .found (.file data)) :
    request files [path] = .ok (.work { input := path }) := by
  have operand : Arguments.readOne specs path = .ok .operand := by
    unfold Arguments.readOne
    split <;> simp_all
  have read : Arguments.ofList specs [path] = .ok { operands := [path] } := by
    simp [Arguments.ofList, Arguments.readFrom, operand]
  have readable : checkReadable files path = .ok () := by rw [checkReadable, found]
  simp only [request, read, options, question?, bind, Except.bind, List.foldlM]
  simp [readable, pure, Except.pure]

end Disassemble

end CommandLine

section

open CommandLine.Disassemble

/-- An emulator lists what the command lists of the same bytes, but for a last byte that is no half
of a word, and is left as it was. So it lists a program that was just loaded as the command does. -/
theorem listings_agree :
    (∀ (e : Emulator) (address count : Int),
      e.disassemble address count = e.disassembleEach address count) ∧
    (∀ (e : Emulator) (address count : Int), 0 ≤ address →
      ∃ lines, e.disassemble address count = .ok lines ∧
        Listing.ofBytes (e.bytesFrom address) address (some count) true = lines ++
          if ((e.bytesFrom address).length + 1) / 2 ≤ count
          then Listing.oddByte address (e.bytesFrom address) else []) ∧
    (∀ (e left : Emulator) (data : List UInt8) (name : String),
      e.loadProgram data name = .ok left → data.length % 2 = 0 →
        ∃ lines, left.disassemble programStart (data.length / 2 : Nat) = .ok lines ∧
          Listing.ofBytes data programStart none true = lines ∧
          ∀ (files : Files) (o : Options), o.IsWhole files →
            (report o files data).exitCode = 0 ∧
            Issued o (sheet o data lines) (report o files data) ∧
            ∀ arguments, request files arguments = .ok (.work o) →
              files o.input = .found (.file data) →
                command arguments files = .done (report o files data)) ∧
    ∀ (e : Emulator) (address count : Int), (e.perform (.disassemble address count)).2 = e := by
  refine ⟨Emulator.disassemble_eq_each, ?_, ?_, ?_⟩
  · intro e address count inside
    refine ⟨_, e.disassemble_eq inside count, ?_⟩
    exact Listing.ofBytes_eq_append (e.bytesFrom address) address count true
  · intro e left data name loaded even
    refine ⟨_, Emulator.disassemble_loadProgram loaded even, rfl, ?_⟩
    intro files o whole
    obtain ⟨code, issued⟩ := report_issues whole (Emulator.ne_nil_of_loadProgram loaded)
    refine ⟨code, issued, fun arguments asked found => ?_⟩
    simp only [command, asked, found]
  · intro e address count
    simp only [Emulator.perform]
    cases e.disassemble address count with
    | error access => rfl
    | ok lines => rfl

def twoWords : List UInt8 :=
  [0x6A, 0x2F, 0xFF, 0xFF]

def withTwoWords : Files := fun path =>
  if path = "game.ch8" then .found (.file twoWords) else .absent

/-- The last three bytes of memory, and the program of two words. -/
theorem listings_agree_twoWords :
    (∃ lines, Emulator.usual.disassemble 0xFFD 2 = .ok lines ∧
      Listing.ofBytes (Emulator.usual.bytesFrom 0xFFD) 0xFFD (some 2) true =
        lines ++ ["$FFF: 00    DB $00"]) ∧
    ∃ left r, Emulator.usual.loadProgram twoWords "game" = .ok left ∧
      left.disassemble 0x200 2 = .ok ["$200: 6A2F  LD VA, $2F", "$202: FFFF  DW $FFFF"] ∧
      command ["game.ch8"] withTwoWords = .done r ∧ r.exitCode = 0 ∧
      r.console.out = "; Disassembly of game.ch8\n; Size: 4 bytes\n; Base address: $200\n\n" ++
        "$200: 6A2F  LD VA, $2F\n$202: FFFF  DW $FFFF\n" := by
  obtain ⟨-, agree, loads, -⟩ := listings_agree
  constructor
  · obtain ⟨lines, listed, same⟩ := agree Emulator.usual 0xFFD 2 (by decide)
    refine ⟨lines, listed, same.trans (congrArg (lines ++ ·) ?_)⟩
    decide +kernel
  · have accepted : (Emulator.usual.loadProgram twoWords "game").toOption.isSome := by
      decide +kernel
    obtain ⟨left, loaded⟩ := Option.isSome_iff_exists.1 accepted
    have loaded := eq_ok_of_toOption loaded
    obtain ⟨lines, listed, rfl, issues⟩ := loads _ left twoWords "game" loaded (by decide)
    have found : withTwoWords "game.ch8" = .found (.file twoWords) := if_pos rfl
    have asked := request_of_path (by decide +kernel) found
    obtain ⟨code, issued, reports⟩ := issues withTwoWords { input := "game.ch8" }
      ⟨rfl, rfl, rfl, nofun⟩
    refine ⟨left, _, loaded, ?_, reports ["game.ch8"] asked found, code, ?_⟩
    · have shown : Listing.ofBytes twoWords 0x200 none true =
        ["$200: 6A2F  LD VA, $2F", "$202: FFFF  DW $FFFF"] := by decide +kernel
      rw [← shown]
      exact listed
    · cases issued with
      | printed _ out =>
        rw [out]
        decide +kernel
      | written output => cases output

end

end Chip8
