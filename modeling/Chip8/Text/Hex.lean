/-! Hexadecimal text.

Numbers are written with upper-case digits. Padding goes between the sign and the digits, and the
sign counts towards the width, so `-1` in four columns is `-001`.
-/

set_option autoImplicit false

namespace Chip8.Text

/-- The upper-case digit of a value below sixteen. -/
def hexDigit (d : Nat) : Char :=
  Char.ofNat (if d < 10 then 48 + d else 55 + d)

/-- Digits of a natural number, most significant first and at least one. -/
def hexDigits (n : Nat) : List Char :=
  if n < 16 then [hexDigit n] else hexDigits (n / 16) ++ [hexDigit (n % 16)]

/-- Characters of an integer, filled with zeros to at least `width` columns. -/
def hexChars (width : Nat) (n : Int) : List Char :=
  let digits := hexDigits n.natAbs
  if n < 0 then '-' :: (List.replicate (width - (digits.length + 1)) '0' ++ digits)
  else List.replicate (width - digits.length) '0' ++ digits

/-- An integer in hexadecimal, filled with zeros to at least `width` columns. -/
def hex (width : Nat) (n : Int) : String :=
  String.ofList (hexChars width n)

theorem hexDigits_of_lt {n : Nat} (small : n < 16) : hexDigits n = [hexDigit n] := by
  rw [hexDigits, if_pos small]

theorem hexDigits_of_ge {n : Nat} (large : ¬ n < 16) :
    hexDigits n = hexDigits (n / 16) ++ [hexDigit (n % 16)] := by
  rw [hexDigits, if_neg large]

theorem hexDigits_ne_nil (n : Nat) : hexDigits n ≠ [] := by
  by_cases small : n < 16
  · simp [hexDigits_of_lt small]
  · simp [hexDigits_of_ge small]

/-! ### Reading back -/

/-- The digits in the order of their values. -/
def hexAlphabet : List Char :=
  ['0', '1', '2', '3', '4', '5', '6', '7', '8', '9', 'A', 'B', 'C', 'D', 'E', 'F']

/-- The number that digits stand for, most significant first. -/
def hexValue (digits : List Char) : Nat :=
  digits.foldl (fun n c => n * 16 + hexAlphabet.idxOf c) 0

theorem idxOf_hexDigit : ∀ d < 16, hexAlphabet.idxOf (hexDigit d) = d := by decide

theorem hexDigit_mem : ∀ d < 16, hexDigit d ∈ hexAlphabet := by decide

theorem eq_zero_of_hexDigit : ∀ d < 16, hexDigit d = '0' → d = 0 := by decide

theorem hexValue_concat (digits : List Char) (c : Char) :
    hexValue (digits ++ [c]) = hexValue digits * 16 + hexAlphabet.idxOf c := by
  simp [hexValue, List.foldl_append]

theorem hexValue_zeros (count : Nat) (digits : List Char) :
    hexValue (List.replicate count '0' ++ digits) = hexValue digits := by
  induction count with
  | zero => rfl
  | succ count ih => exact ih

theorem hexValue_hexDigits (n : Nat) : hexValue (hexDigits n) = n := by
  induction n using Nat.strongRecOn with
  | ind n ih =>
    by_cases small : n < 16
    · rw [hexDigits_of_lt small, ← List.nil_append [_], hexValue_concat, idxOf_hexDigit n small]
      exact Nat.zero_add n
    · rw [hexDigits_of_ge small, hexValue_concat, ih (n / 16) (by omega),
        idxOf_hexDigit (n % 16) (by omega)]
      omega

theorem mem_hexAlphabet_of_mem_hexDigits {n : Nat} {c : Char} (member : c ∈ hexDigits n) :
    c ∈ hexAlphabet := by
  induction n using Nat.strongRecOn with
  | ind n ih =>
    by_cases small : n < 16
    · rw [hexDigits_of_lt small, List.mem_singleton] at member
      exact member ▸ hexDigit_mem n small
    · rw [hexDigits_of_ge small, List.mem_append, List.mem_singleton] at member
      rcases member with earlier | rfl
      · exact ih (n / 16) (by omega) earlier
      · exact hexDigit_mem (n % 16) (by omega)

/-- Digits have no zero in front, unless they stand for zero. -/
theorem eq_zero_of_head_hexDigits {n : Nat} (zero : (hexDigits n).head? = some '0') : n = 0 := by
  induction n using Nat.strongRecOn with
  | ind n ih =>
    by_cases small : n < 16
    · rw [hexDigits_of_lt small] at zero
      exact eq_zero_of_hexDigit n small (Option.some.inj zero)
    · obtain ⟨first, rest, front⟩ := List.exists_cons_of_ne_nil (hexDigits_ne_nil (n / 16))
      have earlier := ih (n / 16) (by omega)
      rw [hexDigits_of_ge small, front] at zero
      rw [front] at earlier
      have := earlier zero
      omega

/-- The form of an integer in hexadecimal: a sign if it is negative, and digits that stand for its
size. There are at least `width` columns, and no more than are needed: beyond the width, no zero
stands in front. -/
def IsHex (width : Nat) (n : Int) (cs : List Char) : Prop :=
  ∃ digits, cs = (if n < 0 then ['-'] else []) ++ digits ∧
    (∀ c ∈ digits, c ∈ hexAlphabet) ∧ hexValue digits = n.natAbs ∧ width ≤ cs.length ∧
    (width < cs.length → digits.head? = some '0' → digits = ['0'])

theorem isHex_pad (width : Nat) (n : Int) (sign : List Char)
    (signed : sign = if n < 0 then ['-'] else []) :
    IsHex width n (sign ++ (List.replicate (width - (sign.length + (hexDigits n.natAbs).length)) '0' ++
      hexDigits n.natAbs)) := by
  refine ⟨List.replicate (width - (sign.length + (hexDigits n.natAbs).length)) '0' ++
    hexDigits n.natAbs, by rw [signed], fun c member => ?_, ?_, ?_, fun wide zero => ?_⟩
  · rcases List.mem_append.1 member with padding | digit
    · obtain rfl := List.eq_of_mem_replicate padding
      decide
    · exact mem_hexAlphabet_of_mem_hexDigits digit
  · rw [hexValue_zeros, hexValue_hexDigits]
  · simp only [List.length_append, List.length_replicate]
    omega
  · -- A text wider than asked for is not padded.
    simp only [List.length_append, List.length_replicate] at wide
    have none : width - (sign.length + (hexDigits n.natAbs).length) = 0 := by omega
    rw [none, List.replicate_zero, List.nil_append] at zero ⊢
    rw [eq_zero_of_head_hexDigits zero]
    exact hexDigits_of_lt (by decide)

theorem isHex_hexChars (width : Nat) (n : Int) : IsHex width n (hexChars width n) := by
  unfold hexChars
  by_cases negative : n < 0
  · have padded := isHex_pad width n ['-'] (by rw [if_pos negative])
    rw [if_pos negative, Nat.add_comm]
    exact padded
  · have padded := isHex_pad width n [] (by rw [if_neg negative])
    rw [if_neg negative]
    simpa using padded

theorem isHex_toList_hex (width : Nat) (n : Int) : IsHex width n (hex width n).toList := by
  rw [hex, String.toList_ofList]
  exact isHex_hexChars width n

/-- The columns of a number that is not negative stand for it, whatever their width. -/
theorem hexValue_hex (width n : Nat) : hexValue (hex width n).toList = n := by
  obtain ⟨digits, form, -, value, -⟩ := isHex_toList_hex width n
  rw [if_neg (by omega), List.nil_append] at form
  rw [form, value, Int.natAbs_natCast]

theorem mem_hexAlphabet_of_mem_hex {width n : Nat} {c : Char} (member : c ∈ (hex width n).toList) :
    c ∈ hexAlphabet := by
  obtain ⟨digits, form, alphabet, -⟩ := isHex_toList_hex width n
  rw [if_neg (by omega), List.nil_append] at form
  exact alphabet c (form ▸ member)

theorem length_hexDigits_le {width n : Nat} (fits : n < Nat.pow 16 (width + 1)) :
    (hexDigits n).length ≤ width + 1 := by
  induction width generalizing n with
  | zero =>
    rw [hexDigits_of_lt fits]
    exact Nat.le_refl 1
  | succ width ih =>
    by_cases small : n < 16
    · rw [hexDigits_of_lt small, List.length_singleton]
      omega
    · have higher : n / 16 < Nat.pow 16 (width + 1) := Nat.div_lt_of_lt_mul (Nat.mul_comm _ _ ▸ fits)
      rw [hexDigits_of_ge small, List.length_append, List.length_singleton]
      exact Nat.succ_le_succ (ih higher)

/-- A number that fits its columns takes exactly as many. -/
theorem length_hex {width n : Nat} (fits : n < Nat.pow 16 (width + 1)) :
    (hex (width + 1) n).toList.length = width + 1 := by
  have short := length_hexDigits_le fits
  rw [hex, String.toList_ofList, hexChars, if_neg (by omega), Int.natAbs_natCast,
    List.length_append, List.length_replicate]
  omega

/-! ### Columns -/

/-- One more column shows one more digit, the lowest. -/
theorem hexChars_succ (width n : Nat) :
    hexChars (width + 2) n = hexChars (width + 1) (n / 16 : Nat) ++ [hexDigit (n % 16)] := by
  simp only [hexChars, Int.natAbs_natCast, if_neg (Int.not_lt.2 (Int.natCast_nonneg _))]
  by_cases small : n < 16
  · have zero : n / 16 = 0 := Nat.div_eq_of_lt small
    have padding : List.replicate (width + 1) '0' =
        List.replicate width '0' ++ [hexDigit 0] := List.replicate_succ'
    rw [zero, hexDigits_of_lt small, hexDigits_of_lt (by decide), Nat.mod_eq_of_lt small]
    simp only [List.length_singleton, Nat.add_sub_cancel]
    rw [show width + 2 - 1 = width + 1 from rfl, padding]
  · rw [hexDigits_of_ge small, List.length_append, List.length_singleton, ← List.append_assoc,
      show width + 2 - ((hexDigits (n / 16)).length + 1) =
        width + 1 - (hexDigits (n / 16)).length by omega]

/-- A byte takes two columns, and a word those of its two bytes. -/
theorem hexChars_word (high low : UInt8) :
    hexChars 4 (high.toNat * 256 + low.toNat : Nat) =
      hexChars 2 high.toNat ++ hexChars 2 low.toNat := by
  have := low.toNat_lt
  have last : (high.toNat * 256 + low.toNat) % 16 = low.toNat % 16 := by omega
  have third : (high.toNat * 256 + low.toNat) / 16 % 16 = low.toNat / 16 := by omega
  have rest : (high.toNat * 256 + low.toNat) / 16 / 16 = high.toNat := by omega
  have one : hexChars 1 (low.toNat / 16 : Nat) = [hexDigit (low.toNat / 16)] := by
    simp only [hexChars, Int.natAbs_natCast, if_neg (Int.not_lt.2 (Int.natCast_nonneg _))]
    rw [hexDigits_of_lt (by omega)]
    rfl
  rw [hexChars_succ 2, hexChars_succ 1, last, third, rest, hexChars_succ 0 low.toNat, one,
    List.append_assoc]

end Chip8.Text
