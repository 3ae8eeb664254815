import Chip8.Numeral.Integer

/-! The grammar of numerals.

A numeral is digits with at most one underscore between two of them, behind an optional sign and, in
base sixteen, behind an optional mark. What reads numerals takes exactly the texts of this grammar,
once they are trimmed and have plain digits, and reads their values.
-/

set_option autoImplicit false

namespace Chip8.Numeral

/-! ### Digits -/

inductive Digits (base : Nat) : List Char → Nat → Prop where
  | one {c : Char} {d : Nat} : digitValue? base c = some d → Digits base [c] d
  | next {cs : List Char} {c : Char} {n d : Nat} : Digits base cs n → digitValue? base c = some d →
      Digits base (cs ++ [c]) (n * base + d)
  | apart {cs : List Char} {c : Char} {n d : Nat} : Digits base cs n → digitValue? base c = some d →
      Digits base (cs ++ ['_', c]) (n * base + d)

variable {base : Nat} {cs before : List Char} {c : Char} {n d value : Nat} {afterDigit : Bool}

theorem Digits.ne_nil (digits : Digits base cs n) : cs ≠ [] := by
  cases digits with
  | one digit => exact List.cons_ne_nil _ _
  | next earlier digit => exact List.append_ne_nil_of_right_ne_nil _ (List.cons_ne_nil _ _)
  | apart earlier digit => exact List.append_ne_nil_of_right_ne_nil _ (List.cons_ne_nil _ _)

theorem ne_underscore (digit : digitValue? base c = some d) : c ≠ '_' := by
  intro same
  subst same
  simp [digitValue?] at digit

theorem digitsFrom_cons (digit : digitValue? base c = some d) :
    digitsFrom base value afterDigit (c :: cs) = digitsFrom base (value * base + d) true cs := by
  rw [digitsFrom, if_neg (ne_underscore digit), digit]

theorem digitsFrom_underscore :
    digitsFrom base value true ('_' :: cs) = digitsFrom base value false cs := by
  rw [digitsFrom, if_pos rfl, if_pos rfl]

theorem Digits.digitsFrom_append (digits : Digits base cs n) (rest : List Char) :
    digitsFrom base 0 false (cs ++ rest) = digitsFrom base n true rest := by
  induction digits generalizing rest with
  | @one c d digit =>
    rw [List.singleton_append, digitsFrom_cons digit, Nat.zero_mul, Nat.zero_add]
  | next earlier digit ih =>
    rw [List.append_assoc, ih, List.singleton_append, digitsFrom_cons digit]
  | apart earlier digit ih =>
    rw [List.append_assoc, ih, List.cons_append, List.singleton_append, digitsFrom_underscore,
      digitsFrom_cons digit]

inductive Begun (base : Nat) : List Char → Nat → Bool → Prop where
  | nothing : Begun base [] 0 false
  | digit {cs : List Char} {n : Nat} : Digits base cs n → Begun base cs n true
  | underscore {cs : List Char} {n : Nat} : Digits base cs n → Begun base (cs ++ ['_']) n false

theorem Begun.next (begun : Begun base before value afterDigit)
    (digit : digitValue? base c = some d) : Digits base (before ++ [c]) (value * base + d) := by
  cases begun with
  | nothing =>
    rw [Nat.zero_mul, Nat.zero_add]
    exact .one digit
  | digit earlier => exact .next earlier digit
  | underscore earlier =>
    rw [List.append_assoc]
    exact .apart earlier digit

/-- Reading on from where reading was left ends with the value of all that was read. -/
theorem Begun.digits (begun : Begun base before value afterDigit)
    (read : digitsFrom base value afterDigit cs = some n) : Digits base (before ++ cs) n := by
  -- What was read is carried along, with whether it could end there.
  induction cs generalizing before value afterDigit with
  | nil =>
    rw [List.append_nil]
    cases begun with
    | digit earlier =>
      cases read
      exact earlier
    | nothing | underscore => cases read
  | cons c cs ih =>
    rw [List.append_cons]
    by_cases underscore : c = '_'
    · subst underscore
      cases begun with
      | digit earlier =>
        rw [digitsFrom_underscore] at read
        exact ih (.underscore earlier) read
      | nothing | underscore =>
        rw [digitsFrom, if_pos rfl] at read
        cases read
    · cases digit : digitValue? base c with
      | none =>
        rw [digitsFrom, if_neg underscore, digit] at read
        cases read
      | some d =>
        rw [digitsFrom_cons digit] at read
        exact ih (.digit (begun.next digit)) read

theorem digits_eq_some_iff : digits base cs = some n ↔ Digits base cs n := by
  constructor
  · intro read
    exact Begun.nothing.digits read
  · intro digits
    have read := digits.digitsFrom_append []
    rw [List.append_nil] at read
    exact read

theorem Digits.not_underscore (digits : Digits base ('_' :: cs) n) : False := by
  have read := digits_eq_some_iff.2 digits
  cases read

/-! ### Marks and signs -/

inductive Marked : List Char → Nat → Prop where
  | bare {cs : List Char} {n : Nat} : Digits 16 cs n → Marked cs n
  | marked {x : Char} {cs : List Char} {n : Nat} : x = 'x' ∨ x = 'X' → Digits 16 cs n →
      Marked ('0' :: x :: cs) n
  | apart {x : Char} {cs : List Char} {n : Nat} : x = 'x' ∨ x = 'X' → Digits 16 cs n →
      Marked ('0' :: x :: '_' :: cs) n

inductive Signed (Unsigned : List Char → Nat → Prop) : List Char → Int → Prop where
  | plain {cs : List Char} {n : Nat} : Unsigned cs n → Signed Unsigned cs n
  | plus {cs : List Char} {n : Nat} : Unsigned cs n → Signed Unsigned ('+' :: cs) n
  | minus {cs : List Char} {n : Nat} : Unsigned cs n → Signed Unsigned ('-' :: cs) (-n)

theorem Marked.ne_nil (marked : Marked cs n) : cs ≠ [] := by
  cases marked with
  | bare digits => exact digits.ne_nil
  | marked isMark digits => exact List.cons_ne_nil _ _
  | apart isMark digits => exact List.cons_ne_nil _ _

theorem Signed.ne_nil {v : Int} (signed : Signed Marked cs v) : cs ≠ [] := by
  cases signed with
  | plain marked => exact marked.ne_nil
  | plus marked => exact List.cons_ne_nil _ _
  | minus marked => exact List.cons_ne_nil _ _

/-- Digits have no mark in front. -/
theorem Digits.dropHexMark_eq (digits : Digits 16 cs n) : dropHexMark cs = cs := by
  have read := digits_eq_some_iff.2 digits
  unfold dropHexMark
  split
  · cases read
  · cases read
  · cases read
  · cases read
  · rfl

theorem Digits.dropHexMark_marked {x : Char} (isMark : x = 'x' ∨ x = 'X')
    (digits : Digits 16 cs n) : dropHexMark ('0' :: x :: cs) = cs := by
  unfold dropHexMark
  split
  · next same =>
    cases same
    exact digits.not_underscore.elim
  · next same =>
    cases same
    exact digits.not_underscore.elim
  · next same =>
    cases same
    rfl
  · next same =>
    cases same
    rfl
  · next noMark noMark' =>
    rcases isMark with rfl | rfl
    · exact (noMark cs rfl).elim
    · exact (noMark' cs rfl).elim

theorem dropHexMark_apart {x : Char} (isMark : x = 'x' ∨ x = 'X') :
    dropHexMark ('0' :: x :: '_' :: cs) = cs := by
  rcases isMark with rfl | rfl
  · rfl
  · rfl

theorem digits_dropHexMark_eq_some_iff : digits 16 (dropHexMark cs) = some n ↔ Marked cs n := by
  constructor
  · intro read
    have digits := digits_eq_some_iff.1 read
    unfold dropHexMark at digits
    split at digits
    · exact .apart (.inl rfl) digits
    · exact .apart (.inr rfl) digits
    · exact .marked (.inl rfl) digits
    · exact .marked (.inr rfl) digits
    · exact .bare digits
  · intro marked
    apply digits_eq_some_iff.2
    cases marked with
    | bare digits => rwa [digits.dropHexMark_eq]
    | marked isMark digits => rwa [digits.dropHexMark_marked isMark]
    | apart isMark digits => rwa [dropHexMark_apart isMark]

def withSign (negative : Bool) (n : Nat) : Int :=
  if negative then -n else n

theorem splitSign_cases (cs : List Char) :
    (∃ rest, cs = '-' :: rest) ∨ (∃ rest, cs = '+' :: rest) ∨ splitSign cs = (false, cs) := by
  unfold splitSign
  split
  · exact .inl ⟨_, rfl⟩
  · exact .inr (.inl ⟨_, rfl⟩)
  · exact .inr (.inr rfl)

/-- A reader of numerals without a sign gives one of numerals with a sign. -/
theorem signed_iff {Unsigned : List Char → Nat → Prop} (read : List Char → Option Nat) {v : Int}
    (reads : ∀ cs n, read cs = some n ↔ Unsigned cs n)
    (unsigned : ∀ cs, read ('-' :: cs) = none ∧ read ('+' :: cs) = none) :
    (read (splitSign cs).2).map (withSign (splitSign cs).1) = some v ↔ Signed Unsigned cs v := by
  constructor
  · intro mapped
    obtain ⟨n, found, rfl⟩ := Option.map_eq_some_iff.1 mapped
    have numeral := (reads _ n).1 found
    rcases splitSign_cases cs with ⟨rest, rfl⟩ | ⟨rest, rfl⟩ | plain
    · exact .minus numeral
    · exact .plus numeral
    · rw [plain] at numeral ⊢
      exact .plain numeral
  · intro signed
    cases signed with
    | @plain cs n numeral =>
      have found := (reads cs n).2 numeral
      rcases splitSign_cases cs with ⟨rest, rfl⟩ | ⟨rest, rfl⟩ | plain
      · rw [(unsigned rest).1] at found
        cases found
      · rw [(unsigned rest).2] at found
        cases found
      · rw [plain, found]
        rfl
    | @plus cs n numeral =>
      have found := (reads cs n).2 numeral
      simp only [splitSign, found]
      rfl
    | @minus cs n numeral =>
      have found := (reads cs n).2 numeral
      simp only [splitSign, found]
      rfl

theorem hexadecimal?_eq (s : String) :
    hexadecimal? s =
      (digits 16 (dropHexMark (splitSign (chars s)).2)).map (withSign (splitSign (chars s)).1) := by
  unfold hexadecimal?
  cases splitSign (chars s) with
  | mk negative cs =>
    dsimp only
    cases digits 16 (dropHexMark cs) with
    | none => rfl
    | some n => rfl

/-- The integers that texts name in base sixteen. -/
theorem hexadecimal?_eq_some_iff {s : String} {v : Int} :
    hexadecimal? s = some v ↔ Signed Marked (chars s) v := by
  rw [hexadecimal?_eq]
  apply signed_iff fun cs => digits 16 (dropHexMark cs)
  · intro cs n
    exact digits_dropHexMark_eq_some_iff
  · intro cs
    exact ⟨rfl, rfl⟩

end Chip8.Numeral
