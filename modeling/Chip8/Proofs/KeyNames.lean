import Chip8.Key
import Chip8.Proofs.WrittenNumerals

/-! What names a key.

A number names the key with that number. A text names a key by one hexadecimal digit, behind `0x` or
not and with blanks around it. Any other numeral in base sixteen with the value of a key is taken for
it too: one with a sign, with a second mark, with zeros in front or with a digit of another script.
-/

set_option autoImplicit false

namespace Chip8

open Numeral (Digits Marked Signed digitValue?)

/-! ### Letter case -/

theorem toLower_eq_zero {c : Char} : c.toLower = '0' ↔ c = '0' := by
  rw [← Char.toNat_inj, ← Char.toNat_inj, toNat_toLower]
  have zero : '0'.toNat = 48 := rfl
  grind

theorem toLower_eq_x {c : Char} : c.toLower = 'x' ↔ c = 'x' ∨ c = 'X' := by
  rw [← Char.toNat_inj, ← Char.toNat_inj, ← Char.toNat_inj, toNat_toLower]
  have small : 'x'.toNat = 120 := rfl
  have capital : 'X'.toNat = 88 := rfl
  grind

/-! ### One character -/

namespace Numeral

variable {base n d : Nat} {c : Char}

theorem digits_singleton : Digits base [c] n ↔ digitValue? base c = some n := by
  rw [← digits_eq_some_iff]
  constructor
  · intro read
    unfold digits digitsFrom at read
    split at read
    · cases read
    · cases digit : digitValue? base c with
      | none =>
        rw [digit] at read
        cases read
      | some d =>
        rw [digit] at read
        simpa [digitsFrom] using read
  · intro digit
    have read := (Digits.one digit).digitsFrom_append []
    exact read

theorem marked_singleton : Marked [c] n ↔ digitValue? 16 c = some n := by
  rw [← digits_singleton]
  constructor
  · intro marked
    cases marked with
    | bare digits => exact digits
  · exact .bare

theorem signed_singleton {v : Int} :
    Signed Marked [c] v ↔ ∃ n, digitValue? 16 c = some n ∧ v = n := by
  constructor
  · intro signed
    cases signed with
    | plain marked => exact ⟨_, marked_singleton.1 marked, rfl⟩
    | plus marked | minus marked => exact (marked.ne_nil rfl).elim
  · rintro ⟨n, digit, rfl⟩
    exact .plain (marked_singleton.2 digit)

end Numeral

namespace KeyName

variable {s : String} {k : Key} {n : Int} {cs : List Char} {d : Char}

/-! ### Texts of one digit -/

def body (s : String) : List Char :=
  dropMark ((Text.trim s.toList).map Char.toLower)

/-- One hexadecimal digit, behind one mark or none and with blanks around it, and its value. -/
def SingleDigit (s : String) (k : Key) : Prop :=
  ∃ c, digitValue? 16 c = some k.val ∧
    (Text.trim s.toList = [c] ∨ ∃ x, (x = 'x' ∨ x = 'X') ∧ Text.trim s.toList = ['0', x, c])

theorem dropMark_singleton (c : Char) : dropMark [c] = [c] := by
  unfold dropMark
  split
  · next same => cases same
  · rfl

theorem dropMark_of_not {a b : Char} (other : ¬ (a = '0' ∧ b = 'x')) :
    dropMark (a :: b :: cs) = a :: b :: cs := by
  unfold dropMark
  split
  · next same =>
    cases same
    exact (other ⟨rfl, rfl⟩).elim
  · rfl

/-- One character is left of one character, behind one mark or none. -/
theorem dropMark_eq_singleton_iff : dropMark (cs.map Char.toLower) = [d] ↔
    ∃ c, c.toLower = d ∧ (cs = [c] ∨ ∃ x, (x = 'x' ∨ x = 'X') ∧ cs = ['0', x, c]) := by
  constructor
  · intro left
    match cs with
    | [] => cases left
    | [c] =>
      rw [List.map_singleton, dropMark_singleton] at left
      cases left
      exact ⟨c, rfl, .inl rfl⟩
    | a :: b :: rest =>
      rw [List.map_cons, List.map_cons] at left
      by_cases mark : a.toLower = '0' ∧ b.toLower = 'x'
      · rw [mark.1, mark.2] at left
        obtain ⟨c, rfl, same⟩ := List.map_eq_singleton_iff.1 left
        rw [toLower_eq_zero.1 mark.1]
        exact ⟨c, same, .inr ⟨b, toLower_eq_x.1 mark.2, rfl⟩⟩
      · rw [dropMark_of_not mark] at left
        cases left
  · rintro ⟨c, rfl, rfl | ⟨x, isMark, rfl⟩⟩
    · exact dropMark_singleton c.toLower
    · have lowered : x.toLower = 'x' := toLower_eq_x.2 isMark
      rw [List.map_cons, List.map_cons, lowered]
      rfl

theorem singleDigit_iff : SingleDigit s k ↔ ∃ d, body s = [d] ∧ digitValue? 16 d = some k.val := by
  constructor
  · rintro ⟨c, digit, shape⟩
    exact ⟨c.toLower, dropMark_eq_singleton_iff.2 ⟨c, rfl, shape⟩,
      (digitValue?_toLower 16 c).trans digit⟩
  · rintro ⟨d, left, digit⟩
    obtain ⟨c, rfl, shape⟩ := dropMark_eq_singleton_iff.1 left
    exact ⟨c, (digitValue?_toLower 16 c).symm.trans digit, shape⟩

/-! ### Texts of other numerals -/

/-- The numeral in base sixteen that a text is, and its value. -/
def Spells (s : String) (n : Int) : Prop :=
  Signed Marked (Numeral.chars (String.ofList (body s))) n

inductive Names : KeyName → Key → Prop where
  | number (k : Key) : Names (.number k.val) k
  | digit {s : String} {k : Key} : SingleDigit s k → Names (.text s) k

/-- Numerals with the value of a key that are more than one digit, or a digit of another script. -/
inductive Lenient : KeyName → Key → Prop where
  | longer {s : String} {k : Key} : Spells s k.val → 1 < (body s).length → Lenient (.text s) k
  | foreign {s : String} {k : Key} {c : Char} : Spells s k.val → c ∈ body s → 128 ≤ c.toNat →
      Lenient (.text s) k

theorem numberOf?_eq_some_iff : numberOf? s = some n ↔ Spells s n :=
  Numeral.hexadecimal?_eq_some_iff

/-- An ASCII character alone is a numeral exactly if it is a digit. -/
theorem signed_ascii_iff (ascii : d.toNat < 128) :
    Signed Marked (Numeral.chars (String.ofList [d])) n ↔
      ∃ m : Nat, digitValue? 16 d = some m ∧ n = m := by
  rw [Numeral.chars, String.toList_ofList, ← Numeral.signed_singleton]
  have same : Numeral.plain d = d := if_pos ascii
  cases space : Text.isSpace d with
  | false =>
    have whole : Text.trimBy Text.isSpace [d] = [d] := by simp [Text.trimBy, space]
    rw [whole, List.map_singleton, same]
  | true =>
    have empty : Text.trimBy Text.isSpace [d] = [] := by simp [Text.trimBy, space]
    rw [empty]
    constructor
    · intro signed
      exact (signed.ne_nil rfl).elim
    · intro signed
      obtain ⟨m, digit, -⟩ := Numeral.signed_singleton.1 signed
      rw [Numeral.isSpace_of_digitValue? digit] at space
      cases space

theorem spells_of_singleDigit (digit : SingleDigit s k) : Spells s k.val := by
  obtain ⟨d, left, value⟩ := singleDigit_iff.1 digit
  rw [Spells, left, signed_ascii_iff (Numeral.ascii_of_digitValue? value)]
  exact ⟨k.val, value, rfl⟩

theorem body_ne_nil (spells : Spells s n) : body s ≠ [] := by
  intro empty
  rw [Spells, empty] at spells
  exact spells.ne_nil rfl

theorem spells_iff : Spells s k.val ↔ Names (.text s) k ∨ Lenient (.text s) k := by
  constructor
  · intro spells
    match left : body s with
    | [] => exact (body_ne_nil spells left).elim
    | [d] =>
      by_cases ascii : d.toNat < 128
      · rw [Spells, left, signed_ascii_iff ascii] at spells
        obtain ⟨m, digit, same⟩ := spells
        rw [← Int.natCast_inj.1 same] at digit
        exact .inl (.digit (singleDigit_iff.2 ⟨d, left, digit⟩))
      · exact .inr (.foreign spells (by rw [left]; exact .head _) (Nat.le_of_not_lt ascii))
    | a :: b :: rest => exact .inr (.longer spells (by simp [left]))
  · rintro (names | lenient)
    · cases names with
      | digit digit => exact spells_of_singleDigit digit
    · cases lenient with
      | longer spells long => exact spells
      | foreign spells among beyond => exact spells

theorem Names.not_lenient {name : KeyName} {l : Key} (names : Names name k) : ¬ Lenient name l := by
  intro lenient
  cases names with
  | number k => cases lenient
  | digit digit =>
    obtain ⟨d, left, value⟩ := singleDigit_iff.1 digit
    have ascii := Numeral.ascii_of_digitValue? value
    cases lenient with
    | longer spells long =>
      rw [left] at long
      exact Nat.lt_irrefl 1 long
    | foreign spells among beyond =>
      rw [left, List.mem_singleton] at among
      subst among
      omega

/-! ### All names -/

theorem keyOf?_eq_some_iff : keyOf? n = some k ↔ n = k.val := by
  unfold keyOf?
  constructor
  · intro found
    split at found
    · cases found
      dsimp only
      omega
    · cases found
  · intro same
    have below := k.isLt
    have inside : 0 ≤ n ∧ n < 16 := by omega
    rw [dif_pos inside]
    simp [same]

theorem keyOf?_eq_none_iff : keyOf? n = none ↔ n < 0 ∨ 15 < n := by
  unfold keyOf?
  split
  · next inside =>
    simp only [reduceCtorEq, false_iff]
    omega
  · next outside =>
    simp only [true_iff]
    omega

inductive Unnamed : KeyName → KeyError → Prop where
  | number {n : Int} : n < 0 ∨ 15 < n → Unnamed (.number n) (.outOfRange (.number n))
  | text {s : String} {n : Int} : Spells s n → n < 0 ∨ 15 < n →
      Unnamed (.text s) (.outOfRange (.text s))
  | unreadable {s : String} : (∀ n, ¬ Spells s n) → Unnamed (.text s) (.invalid s)

theorem key_number_eq_ok_iff : key (.number n) = .ok k ↔ n = k.val := by
  rw [← keyOf?_eq_some_iff, key]
  cases keyOf? n with
  | none => simp
  | some l => simp

theorem key_text_eq_ok_iff : key (.text s) = .ok k ↔ Spells s k.val := by
  rw [← numberOf?_eq_some_iff, key]
  cases numberOf? s with
  | none => simp
  | some n =>
    dsimp only
    rw [Option.some_inj, ← keyOf?_eq_some_iff]
    cases keyOf? n with
    | none => simp
    | some l => simp

theorem numberOf?_eq_none_iff : numberOf? s = none ↔ ∀ n, ¬ Spells s n := by
  constructor
  · intro missing n spells
    rw [numberOf?_eq_some_iff.2 spells] at missing
    cases missing
  · intro unreadable
    cases found : numberOf? s with
    | none => rfl
    | some n => exact (unreadable n (numberOf?_eq_some_iff.1 found)).elim

theorem unnamed_of_error {name : KeyName} {error : KeyError} (failed : key name = .error error) :
    Unnamed name error := by
  cases name with
  | number n =>
    rw [key] at failed
    cases found : keyOf? n with
    | some k => simp [found] at failed
    | none =>
      simp only [found] at failed
      cases failed
      exact .number (keyOf?_eq_none_iff.1 found)
  | text s =>
    rw [key] at failed
    cases read : numberOf? s with
    | none =>
      simp only [read] at failed
      cases failed
      exact .unreadable (numberOf?_eq_none_iff.1 read)
    | some n =>
      simp only [read] at failed
      cases found : keyOf? n with
      | some k => simp [found] at failed
      | none =>
        simp only [found] at failed
        cases failed
        exact .text (numberOf?_eq_some_iff.1 read) (keyOf?_eq_none_iff.1 found)

theorem Unnamed.key_eq {name : KeyName} {error : KeyError} (unnamed : Unnamed name error) :
    key name = .error error := by
  cases unnamed with
  | number outside => simp only [key, keyOf?_eq_none_iff.2 outside]
  | text spells outside =>
    simp only [key, numberOf?_eq_some_iff.2 spells, keyOf?_eq_none_iff.2 outside]
  | unreadable unreadable => simp only [key, numberOf?_eq_none_iff.2 unreadable]

theorem key_eq_ok_iff {name : KeyName} : key name = .ok k ↔ Names name k ∨ Lenient name k := by
  cases name with
  | text s => exact key_text_eq_ok_iff.trans spells_iff
  | number n =>
    rw [key_number_eq_ok_iff]
    constructor
    · rintro rfl
      exact .inl (.number k)
    · rintro (names | lenient)
      · cases names
        rfl
      · cases lenient

/-- A name is taken for a key if it names that key or is a lenient numeral for it, so the lenient
numerals are all that is taken beyond what names a key. The rest is refused, each with its error. -/
theorem key_exactly (name : KeyName) :
    (∀ k, key name = .ok k ↔ Names name k ∨ Lenient name k) ∧
    ((∀ k, key name = .ok k ↔ Names name k) ↔ ∀ k, ¬ Lenient name k) ∧
    (∀ error, key name = .error error ↔ Unnamed name error) := by
  refine ⟨?_, ⟨?_, ?_⟩, ?_⟩
  · intro k
    exact key_eq_ok_iff
  · intro meant k lenient
    have names := (meant k).1 (key_eq_ok_iff.2 (.inr lenient))
    exact names.not_lenient lenient
  · intro strict k
    rw [key_eq_ok_iff, or_iff_left (strict k)]
  · intro error
    exact ⟨unnamed_of_error, Unnamed.key_eq⟩

example : ["0A", "+A", "-0", "0_A", "0x A"].map (fun s => (key (.text s)).toOption) =
    [some 10, some 10, some 0, some 10, some 10] := rfl

/-- A text with two marks is no digit behind a single one, but is taken for a key. -/
theorem second_mark_accepted : ¬ ∀ name k, key name = .ok k ↔ Names name k := by
  intro claim
  have accepted : key (.text "0x0xA") = .ok 10 := rfl
  have length : (Text.trim "0x0xA".toList).length = 5 := rfl
  have names := (claim (.text "0x0xA") 10).1 accepted
  cases names with
  | digit digit =>
    obtain ⟨c, -, one | ⟨x, -, marked⟩⟩ := digit
    · rw [one] at length
      cases length
    · rw [marked] at length
      cases length

end KeyName

end Chip8
