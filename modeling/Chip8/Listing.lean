import Chip8.Instruction.Text

/-! Listings of bytes as consecutive words. -/

set_option autoImplicit false

namespace Chip8.Listing

/-- The line of a word, with or without the word in hexadecimal. -/
def wordLine (showBytes : Bool) (address : Int) (w : Word) : String :=
  if showBytes then s!"${Text.hex 3 address}: {Text.hex 4 w.toNat}  {Word.text w}"
  else s!"${Text.hex 3 address}: {Word.text w}"

/-- The line of a last byte that is no half of a word. It always shows the byte twice. -/
def byteLine (address : Int) (b : UInt8) : String :=
  s!"${Text.hex 3 address}: {Text.hex 2 b.toNat}    DB ${Text.hex 2 b.toNat}"

def words (showBytes : Bool) : (address : Int) → List UInt8 → List String
  | address, high :: low :: data =>
    wordLine showBytes address (Word.ofBytes high low) :: words showBytes (address + 2) data
  | _, [_] => []
  | _, [] => []

def bytes (showBytes : Bool) : (address : Int) → List UInt8 → List String
  | address, high :: low :: data =>
    wordLine showBytes address (Word.ofBytes high low) :: bytes showBytes (address + 2) data
  | address, [b] => [byteLine address b]
  | _, [] => []

/-- As many lines as a count allows; no count allows all, and a negative one none. -/
def limit (count : Option Int) (lines : List String) : List String :=
  match count with
  | none => lines
  | some n => lines.take n.toNat

def ofBytes (data : List UInt8) (address : Int) (count : Option Int) (showBytes : Bool) :
    List String :=
  limit count (bytes showBytes address data)

theorem length_words (showBytes : Bool) (address : Int) (data : List UInt8) :
    (words showBytes address data).length = data.length / 2 := by
  fun_induction words showBytes address data with
  | case1 address high low data ih =>
    simp only [List.length_cons, ih]
    omega
  | case2 => simp
  | case3 => rfl

theorem length_bytes (showBytes : Bool) (address : Int) (data : List UInt8) :
    (bytes showBytes address data).length = (data.length + 1) / 2 := by
  fun_induction bytes showBytes address data with
  | case1 address high low data ih =>
    simp only [List.length_cons, ih]
    omega
  | case2 => simp
  | case3 => rfl

end Chip8.Listing
