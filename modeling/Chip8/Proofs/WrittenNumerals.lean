import Chip8.Proofs.NumeralGrammar
import Chip8.Text.Hex

/-! Numerals as they are written.

Writing a number in a base gives digits of that base, and these stand for the number also with zeros
in front and in letters of the other case. They hold nothing that reading would trim or replace, so
what is written is read back.
-/

set_option autoImplicit false

namespace Chip8

open Numeral (digitValue? digitsFrom)

/-! ### Letter case -/

theorem toNat_toLower (c : Char) :
    c.toLower.toNat = if 65 ≤ c.toNat ∧ c.toNat ≤ 90 then c.toNat + 32 else c.toNat := by
  unfold Char.toLower
  split
  · next upper =>
    have low : 65 ≤ c.toNat := UInt32.le_iff_toNat_le.1 upper.1
    have high : c.toNat ≤ 90 := UInt32.le_iff_toNat_le.1 upper.2
    rw [if_pos ⟨low, high⟩]
    change (c.val + 32).toNat = c.toNat + 32
    rw [UInt32.toNat_add]
    apply Nat.mod_eq_of_lt
    change c.toNat + 32 < 2 ^ 32
    omega
  · next other =>
    have outside : ¬ (65 ≤ c.toNat ∧ c.toNat ≤ 90) := by
      intro inside
      exact other ⟨UInt32.le_iff_toNat_le.2 inside.1, UInt32.le_iff_toNat_le.2 inside.2⟩
    rw [if_neg outside]

theorem toLower_eq_underscore {c : Char} : c.toLower = '_' ↔ c = '_' := by
  rw [← Char.toNat_inj, ← Char.toNat_inj, toNat_toLower]
  have underscore : '_'.toNat = 95 := rfl
  grind

theorem digitValue?_toLower (base : Nat) (c : Char) :
    digitValue? base c.toLower = digitValue? base c := by
  simp only [digitValue?, toNat_toLower]
  grind

def SameLetters (cs ds : List Char) : Prop :=
  cs.map Char.toLower = ds.map Char.toLower

instance (cs ds : List Char) : Decidable (SameLetters cs ds) :=
  inferInstanceAs (Decidable (_ = _))

namespace Numeral

variable {base n d : Nat} {c : Char} {cs ds : List Char} {v : Int}

theorem digitsFrom_map_toLower (value : Nat) (afterDigit : Bool) (cs : List Char) :
    digitsFrom base value afterDigit (cs.map Char.toLower) = digitsFrom base value afterDigit cs := by
  induction cs generalizing value afterDigit with
  | nil => rfl
  | cons c cs ih => simp only [List.map_cons, digitsFrom, toLower_eq_underscore, digitValue?_toLower, ih]

/-- The case of letters has no part in the value of digits. -/
theorem Digits.of_sameLetters (digits : Digits base ds n) (same : SameLetters cs ds) :
    Digits base cs n := by
  apply digits_eq_some_iff.1
  have read := digits_eq_some_iff.2 digits
  rw [Numeral.digits, ← digitsFrom_map_toLower, same, digitsFrom_map_toLower]
  exact read

/-! ### Characters that reading keeps -/

theorem range_of_digitValue? (digit : digitValue? base c = some d) :
    (48 ≤ c.toNat ∧ c.toNat ≤ 57) ∨ (65 ≤ c.toNat ∧ c.toNat ≤ 70) ∨
      (97 ≤ c.toNat ∧ c.toNat ≤ 102) := by
  unfold digitValue? at digit
  grind

theorem ascii_of_digitValue? (digit : digitValue? base c = some d) : c.toNat < 128 := by
  have range := range_of_digitValue? digit
  omega

theorem isSpace_of_digitValue? (digit : digitValue? base c = some d) : Text.isSpace c = false := by
  have range := range_of_digitValue? digit
  simp only [Text.isSpace, Bool.or_eq_false_iff, Bool.and_eq_false_iff, decide_eq_false_iff_not,
    beq_eq_false_iff_ne]
  omega

/-- A character that is neither trimmed nor replaced. -/
def IsKept (c : Char) : Prop :=
  c.toNat < 128 ∧ Text.isSpace c = false

instance (c : Char) : Decidable (IsKept c) :=
  inferInstanceAs (Decidable (_ ∧ _))

theorem isKept_of_digitValue? (digit : digitValue? base c = some d) : IsKept c :=
  ⟨ascii_of_digitValue? digit, isSpace_of_digitValue? digit⟩

theorem trimBy_eq_self {drop : Char → Bool} (kept : ∀ c ∈ cs, drop c = false) :
    Text.trimBy drop cs = cs := by
  have stays {ds : List Char} (kept : ∀ c ∈ ds, drop c = false) : ds.dropWhile drop = ds := by
    cases ds with
    | nil => rfl
    | cons c ds => exact List.dropWhile_cons_of_neg (by simp [kept c (.head _)])
  rw [Text.trimBy, stays kept, stays fun c member => kept c (List.mem_reverse.1 member),
    List.reverse_reverse]

theorem chars_eq {s : String} (kept : ∀ c ∈ s.toList, IsKept c) : chars s = s.toList := by
  have same : ∀ c ∈ s.toList, plain c = id c := fun c member => if_pos (kept c member).1
  rw [chars, trimBy_eq_self fun c member => (kept c member).2, List.map_congr_left same, List.map_id]

theorem Digits.isKept (digits : Digits base cs n) : ∀ c ∈ cs, IsKept c := by
  have underscore : IsKept '_' := by decide
  induction digits with
  | one digit => exact List.forall_mem_singleton.2 (isKept_of_digitValue? digit)
  | next earlier digit ih =>
    exact List.forall_mem_append.2 ⟨ih, List.forall_mem_singleton.2 (isKept_of_digitValue? digit)⟩
  | apart earlier digit ih =>
    exact List.forall_mem_append.2 ⟨ih, List.forall_mem_cons.2 ⟨underscore,
      List.forall_mem_singleton.2 (isKept_of_digitValue? digit)⟩⟩

theorem Marked.isKept (marked : Marked cs n) : ∀ c ∈ cs, IsKept c := by
  have mark {x : Char} (isMark : x = 'x' ∨ x = 'X') : IsKept x := by
    rcases isMark with rfl | rfl <;> decide
  cases marked with
  | bare digits => exact digits.isKept
  | marked isMark digits =>
    exact List.forall_mem_cons.2 ⟨by decide, List.forall_mem_cons.2 ⟨mark isMark, digits.isKept⟩⟩
  | apart isMark digits =>
    exact List.forall_mem_cons.2 ⟨by decide, List.forall_mem_cons.2 ⟨mark isMark,
      List.forall_mem_cons.2 ⟨by decide, digits.isKept⟩⟩⟩

theorem Signed.isKept {Unsigned : List Char → Nat → Prop}
    (unsigned : ∀ {cs n}, Unsigned cs n → ∀ c ∈ cs, IsKept c) (signed : Signed Unsigned cs v) :
    ∀ c ∈ cs, IsKept c := by
  cases signed with
  | plain numeral => exact unsigned numeral
  | plus numeral | minus numeral => exact List.forall_mem_cons.2 ⟨by decide, unsigned numeral⟩

/-- A numeral that is a text as it stands is read as what it stands for. -/
theorem hexadecimal?_of_signed {s : String} (signed : Signed Marked s.toList v) :
    hexadecimal? s = some v := by
  rw [hexadecimal?_eq_some_iff, chars_eq (signed.isKept Marked.isKept)]
  exact signed

/-! ### Decimal numerals -/

theorem decimal?_eq (s : String) :
    decimal? s =
      if maxDecimalDigits < ((splitSign (chars s)).2.filter (· != '_')).length then none
      else (digits 10 (splitSign (chars s)).2).map (withSign (splitSign (chars s)).1) := by
  unfold decimal?
  cases splitSign (chars s) with
  | mk negative cs =>
    dsimp only
    cases digits 10 cs with
    | none => rfl
    | some n => rfl

theorem signed_digits_iff :
    (digits 10 (splitSign cs).2).map (withSign (splitSign cs).1) = some v ↔ Signed (Digits 10) cs v :=
  signed_iff (digits 10) (fun _ _ => digits_eq_some_iff) fun _ => ⟨rfl, rfl⟩

/-- The integers that texts name in base ten: numerals of so many digits at most. -/
theorem decimal?_eq_some_iff {s : String} :
    decimal? s = some v ↔
      ((splitSign (chars s)).2.filter (· != '_')).length ≤ maxDecimalDigits ∧
        Signed (Digits 10) (chars s) v := by
  rw [decimal?_eq, ← signed_digits_iff]
  split
  · next long => exact iff_of_false nofun fun both => Nat.not_le.2 long both.1
  · next short => exact (and_iff_right (Nat.not_lt.1 short)).symm

/-! ### Positional notation -/

/-- A text that is one digit below the base, and the text of the higher places and the digit of the
lowest from there on, is digits that stand for the number. -/
theorem digits_of_places {write : Nat → List Char} {digit : Nat → Char} (large : 1 < base)
    (one : ∀ n < base, write n = [digit n])
    (more : ∀ n, base ≤ n → write n = write (n / base) ++ [digit (n % base)])
    (value : ∀ d < base, digitValue? base (digit d) = some d) (n : Nat) :
    Digits base (write n) n := by
  induction n using Nat.strongRecOn with
  | ind n ih =>
    by_cases small : n < base
    · rw [one n small]
      exact .one (value n small)
    · have higher := ih (n / base) (Nat.div_lt_self (by omega) large)
      have lowest := value (n % base) (Nat.mod_lt n (by omega))
      have next := Digits.next higher lowest
      rw [Nat.mul_comm, Nat.div_add_mod] at next
      rw [more n (Nat.le_of_not_lt small)]
      exact next

theorem digits_hexDigits (n : Nat) : Digits 16 (Text.hexDigits n) n :=
  digits_of_places (by decide) (fun _ => Text.hexDigits_of_lt)
    (fun _ large => Text.hexDigits_of_ge (Nat.not_lt.2 large)) (by decide) n

theorem digits_toDigits (n : Nat) : Digits 10 (Nat.toDigits 10 n) n :=
  digits_of_places (by decide) (fun _ => Nat.toDigits_of_lt_base)
    (fun _ large => Nat.toDigits_of_base_le (by decide) large) (by decide) n

theorem Digits.zero_cons (zero : digitValue? base '0' = some 0) (digits : Digits base cs n) :
    Digits base ('0' :: cs) n := by
  induction digits with
  | one digit =>
    have pair := Digits.next (.one zero) digit
    rw [Nat.zero_mul, Nat.zero_add] at pair
    exact pair
  | next earlier digit ih => exact .next ih digit
  | apart earlier digit ih => exact .apart ih digit

/-- Zeros in front have no part in the value of digits. -/
theorem Digits.zeros (zero : digitValue? base '0' = some 0) (digits : Digits base cs n)
    (count : Nat) : Digits base (List.replicate count '0' ++ cs) n := by
  induction count with
  | zero => exact digits
  | succ count ih => exact ih.zero_cons zero

theorem digits_padded (count n : Nat) :
    Digits 16 (List.replicate count '0' ++ Text.hexDigits n) n :=
  (digits_hexDigits n).zeros (by decide) count

/-- An integer in hexadecimal columns is a numeral for it, whatever their width. -/
theorem signed_hexChars (width : Nat) (n : Int) : Signed Marked (Text.hexChars width n) n := by
  rw [Text.hexChars]
  split
  · next negative =>
    have signed := Signed.minus (Marked.bare (digits_padded
      (width - ((Text.hexDigits n.natAbs).length + 1)) n.natAbs))
    rw [Int.ofNat_natAbs_of_nonpos (Int.le_of_lt negative), Int.neg_neg] at signed
    exact signed
  · next nonneg =>
    have signed := Signed.plain (Marked.bare (digits_padded
      (width - (Text.hexDigits n.natAbs).length) n.natAbs))
    rw [Int.natAbs_of_nonneg (Int.not_lt.1 nonneg)] at signed
    exact signed

/-! ### Decimal texts -/

theorem toList_toString (n : Int) :
    (toString n).toList = (if n < 0 then ['-'] else []) ++ Nat.toDigits 10 n.natAbs := by
  cases n with
  | ofNat n =>
    have nonneg : ¬ (Int.ofNat n < 0) := Int.not_lt.2 (Int.natCast_nonneg n)
    rw [if_neg nonneg, List.nil_append]
    exact Nat.toList_repr
  | negSucc n =>
    rw [if_pos (Int.negSucc_lt_zero n)]
    change ("-" ++ Nat.repr (n + 1)).toList = _
    rw [String.toList_append, Nat.toList_repr]
    rfl

theorem signed_toString (n : Int) : Signed (Digits 10) (toString n).toList n := by
  rw [toList_toString]
  split
  · next negative =>
    have signed := Signed.minus (digits_toDigits n.natAbs)
    rw [Int.ofNat_natAbs_of_nonpos (Int.le_of_lt negative), Int.neg_neg] at signed
    exact signed
  · next nonneg =>
    have signed := Signed.plain (digits_toDigits n.natAbs)
    rw [Int.natAbs_of_nonneg (Int.not_lt.1 nonneg)] at signed
    exact signed

/-- Digits have no sign in front. -/
theorem Digits.splitSign_eq (digits : Digits base cs n) : splitSign cs = (false, cs) := by
  have read := digits_eq_some_iff.2 digits
  rcases splitSign_cases cs with ⟨rest, rfl⟩ | ⟨rest, rfl⟩ | plain
  · simp [Numeral.digits, digitsFrom, digitValue?] at read
  · simp [Numeral.digits, digitsFrom, digitValue?] at read
  · exact plain

theorem splitSign_toString (n : Int) :
    (splitSign (toString n).toList).2 = Nat.toDigits 10 n.natAbs := by
  rw [toList_toString]
  split
  · rfl
  · rw [List.nil_append, (digits_toDigits n.natAbs).splitSign_eq]

theorem length_toString (n : Nat) : (toString n).length = (Nat.toDigits 10 n).length := by
  rw [← String.length_toList]
  exact congrArg List.length Nat.toList_repr

theorem decimal?_toString (n : Int) :
    decimal? (toString n) = some n ↔ (toString n.natAbs).length ≤ maxDecimalDigits := by
  have signed := signed_toString n
  have digit : ∀ c ∈ Nat.toDigits 10 n.natAbs, (c != '_') = true := by
    intro c member
    have isDigit := Nat.isDigit_of_mem_toDigits (by decide) (by decide) member
    rw [bne_iff_ne]
    rintro rfl
    cases isDigit
  rw [decimal?_eq_some_iff, chars_eq (signed.isKept Digits.isKept), splitSign_toString,
    List.filter_eq_self.2 digit, length_toString]
  exact and_iff_left signed

end Numeral

end Chip8
