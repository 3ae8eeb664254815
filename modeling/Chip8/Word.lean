/-! Instruction words and the fields that every word has.

A word is written most significant byte first. From the top it holds a four-bit family, the
registers `x` and `y`, and a nibble; the low twelve bits are also an address and the low eight a
byte.
-/

set_option autoImplicit false

namespace Chip8

/-- The number of one of the sixteen general registers. -/
abbrev Register := Fin 16

def Register.first : Register := 0

def Register.flag : Register := 15

/-- An address operand of an instruction. -/
abbrev Address := Fin 4096

abbrev Word := UInt16

namespace Word

/-- The word whose bytes, in memory order, are `high` and `low`. -/
def ofBytes (high low : UInt8) : Word :=
  UInt16.ofNat (high.toNat * 256 + low.toNat)

/-- The bits that select one of sixteen instruction families. -/
def family (w : Word) : Fin 16 :=
  ⟨w.toNat / 4096, by have := w.toNat_lt; omega⟩

def address (w : Word) : Address :=
  ⟨w.toNat % 4096, Nat.mod_lt _ (by decide)⟩

def x (w : Word) : Register :=
  ⟨w.toNat / 256 % 16, Nat.mod_lt _ (by decide)⟩

def y (w : Word) : Register :=
  ⟨w.toNat / 16 % 16, Nat.mod_lt _ (by decide)⟩

def byte (w : Word) : UInt8 :=
  UInt8.ofNat (w.toNat % 256)

def nibble (w : Word) : Fin 16 :=
  ⟨w.toNat % 16, Nat.mod_lt _ (by decide)⟩

theorem toNat_ofBytes (high low : UInt8) :
    (ofBytes high low).toNat = high.toNat * 256 + low.toNat := by
  have := high.toNat_lt
  have := low.toNat_lt
  simp only [ofBytes, UInt16.toNat_ofNat']
  omega

end Word

end Chip8
