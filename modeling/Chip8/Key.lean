import Chip8.Numeral.Integer
import Chip8.Text.Quoted

/-! Keys of the sixteen-key pad, and the ways a host may name them. -/

set_option autoImplicit false

namespace Chip8

abbrev Key := Fin 16

/-- What a host gives for a key. -/
inductive KeyName where
  | number (n : Int)
  | text (s : String)
  deriving DecidableEq, Repr

inductive KeyError where
  | invalid (s : String)
  | outOfRange (name : KeyName)
  deriving DecidableEq, Repr

namespace KeyName

/-- The name as shown in messages. -/
def shown : KeyName → String
  | number n => toString n
  | text s => Text.quoted s

/-- Drop one leading `0x` from lower-case text. -/
def dropMark : List Char → List Char
  | '0' :: 'x' :: cs => cs
  | cs => cs

/-- The number that a text names: a hexadecimal numeral, trimmed and without one leading `0x`. No
character outside ASCII has a lower case that matters here. -/
def numberOf? (s : String) : Option Int :=
  Numeral.hexadecimal? (String.ofList (dropMark ((Text.trim s.toList).map Char.toLower)))

/-- The key with a number from 0 to 15. -/
def keyOf? (n : Int) : Option Key :=
  if inside : 0 ≤ n ∧ n < 16 then some ⟨n.toNat, by omega⟩ else none

def key (name : KeyName) : Except KeyError Key :=
  match name with
  | number n =>
    match keyOf? n with
    | some k => .ok k
    | none => .error (.outOfRange name)
  | text s =>
    match numberOf? s with
    | none => .error (.invalid s)
    | some n =>
      match keyOf? n with
      | some k => .ok k
      | none => .error (.outOfRange name)

end KeyName

def KeyError.message : KeyError → String
  | invalid s => s!"Invalid key: {Text.quoted s}"
  | outOfRange name => s!"Key must be 0-F, got {name.shown}"

end Chip8
