import Chip8.CommandLine.Run

/-! Texts that are printed as they are.

Printing drops control sequences. A text without an escape has none, so it is printed as it is; and
a text that is put behind or before such a text keeps its own sequences to itself.
-/

set_option autoImplicit false

namespace Chip8

namespace Text.ControlSequence

def IsPlain (text : String) : Prop :=
  escape ∉ text.toList

instance (text : String) : Decidable (IsPlain text) :=
  inferInstanceAs (Decidable (_ ∉ _))

variable {a b : String}

@[simp] theorem isPlain_append : IsPlain (a ++ b) ↔ IsPlain a ∧ IsPlain b := by
  simp only [IsPlain, String.toList_append, List.mem_append, not_or]

theorem isPlain_intercalate {separator : String} (between : IsPlain separator) {texts : List String}
    (each : ∀ text ∈ texts, IsPlain text) : IsPlain (separator.intercalate texts) := by
  induction texts with
  | nil =>
    rw [String.intercalate_nil]
    decide
  | cons first texts ih =>
    obtain ⟨here, rest⟩ := List.forall_mem_cons.1 each
    cases texts with
    | nil =>
      rw [String.intercalate_singleton]
      exact here
    | cons second texts =>
      rw [String.intercalate_cons_cons]
      exact isPlain_append.2 ⟨isPlain_append.2 ⟨here, between⟩, ih rest⟩

theorem isPlain_join {texts : List String} (each : ∀ text ∈ texts, IsPlain text) :
    IsPlain (String.join texts) := by
  rw [IsPlain, String.toList_join, List.mem_flatMap]
  rintro ⟨text, member, inside⟩
  exact each text member inside

theorem isPlain_hex (width : Nat) (n : Int) : IsPlain (hex width n) := by
  intro inside
  obtain ⟨digits, same, alphabet, -⟩ := isHex_toList_hex width n
  rw [same, List.mem_append] at inside
  rcases inside with sign | digit
  · split at sign
    · exact absurd sign (by decide)
    · cases sign
  · exact absurd (alphabet _ digit) (by decide)

theorem isPlain_toString (n : Nat) : IsPlain (toString n) := by
  intro inside
  have digits : (toString n).toList = Nat.toDigits 10 n := by simp
  rw [digits] at inside
  exact absurd (Nat.isDigit_of_mem_toDigits (by decide) (by decide) inside) (by decide)

/-- What stands behind a plain text is printed as it would be alone. -/
theorem plain_append (first : IsPlain a) : plain (a ++ b) = a ++ plain b := by
  have drop_append {cs : List Char} (absent : escape ∉ cs) (ds : List Char) :
      drop [] (cs ++ ds) = cs ++ drop [] ds := by
    induction cs with
    | nil => rfl
    | cons c cs ih =>
      rw [List.mem_cons, not_or] at absent
      rw [List.cons_append, drop, if_neg (Ne.symm absent.1), ih absent.2, List.cons_append]
  rw [plain, plain, String.toList_append, drop_append first, String.ofList_append,
    String.ofList_toList]

theorem drop_append_blank {cs : List Char} (absent : escape ∉ cs) (held ds : List Char) :
    drop held (ds ++ ' ' :: cs) = drop held ds ++ ' ' :: cs := by
  -- A blank ends whatever is held, so no sequence goes on behind it.
  induction ds generalizing held with
  | nil =>
    have other : ' ' ≠ escape := by decide
    have behind := drop_eq_self absent
    match held with
    | [] => simp [drop, other, behind]
    | [first] => simp [drop, other, behind]
    | first :: second :: held => simp [drop, other, behind, isParameter]
  | cons d ds ih =>
    rw [List.cons_append]
    match held with
    | [] =>
      simp only [drop, ih]
      split <;> simp
    | [first] =>
      simp only [drop, ih]
      split
      · simp
      · split <;> simp
    | first :: second :: held =>
      simp only [drop, ih]
      split
      · simp
      · split
        · rfl
        · split <;> simp

/-- A blank ends whatever looks like the start of a control sequence. -/
theorem plain_append_blank (second : IsPlain b) (blank : b.toList.head? = some ' ') :
    plain (a ++ b) = plain a ++ b := by
  obtain ⟨cs, same⟩ := List.head?_eq_some_iff.1 blank
  rw [IsPlain, same, List.mem_cons, not_or] at second
  rw [plain, plain, String.toList_append, same, drop_append_blank second.2, String.ofList_append,
    ← same, String.ofList_toList]

end Text.ControlSequence

open Text.ControlSequence

/-! ### What a run prints -/

theorem Screen.isPlain_text (s : Screen) {on off : String} (set : IsPlain on)
    (unset : IsPlain off) : IsPlain (s.text on off) := by
  refine isPlain_intercalate (by decide) fun row member => ?_
  obtain ⟨y, -, rfl⟩ := List.mem_map.1 member
  refine isPlain_join fun pixel member => ?_
  obtain ⟨x, -, rfl⟩ := List.mem_map.1 member
  split
  · exact set
  · exact unset

theorem Fault.isPlain_message (f : Fault) : IsPlain f.message := by
  have cause : IsPlain f.cause.text := by
    cases f.cause with
    | unknownOpcode opcode => exact isPlain_append.2 ⟨by decide, isPlain_hex 4 _⟩
    | stackUnderflow => decide
    | addressOutOfRange access =>
      change IsPlain (_ ++ _ ++ _ ++ _ ++ _)
      simp only [isPlain_append]
      exact ⟨⟨⟨⟨by decide, isPlain_hex 4 _⟩, by decide⟩, isPlain_hex 4 _⟩, by decide⟩
  unfold Fault.message
  split
  · simp only [isPlain_append]
    exact ⟨⟨⟨by decide, isPlain_hex 4 _⟩, by decide⟩, cause⟩
  · exact isPlain_append.2 ⟨by decide, cause⟩

/-- Of a text about a program only the name can hold control sequences. -/
theorem plain_programText (name : String) {rest : String} (isPlain : IsPlain rest)
    (blank : rest.toList.head? = some ' ') :
    plain ("Program " ++ name ++ rest) = "Program " ++ plain name ++ rest := by
  have front : IsPlain "Program " := by decide
  rw [plain_append_blank isPlain blank, plain_append front]

theorem LoadError.plain_message_empty (name : String) :
    plain (empty name).message = (empty (plain name)).message :=
  plain_programText name (by decide) rfl

theorem LoadError.plain_message_tooLarge (name : String) (size : Nat) :
    plain (tooLarge name size).message = (tooLarge (plain name) size).message := by
  have shape (name : String) : (tooLarge name size).message = "Program " ++ name ++ (" is " ++
      toString size ++ " bytes; at most " ++ toString maxProgramSize ++ " bytes fit at $" ++
        Text.hex 3 programStart) := by
    simp only [← String.append_assoc]
    rfl
  have isPlain : IsPlain (" is " ++ toString size ++ " bytes; at most " ++
      toString maxProgramSize ++ " bytes fit at $" ++ Text.hex 3 programStart) := by
    simp only [isPlain_append]
    exact ⟨⟨⟨⟨⟨by decide, isPlain_toString size⟩, by decide⟩,
      isPlain_toString maxProgramSize⟩, by decide⟩, isPlain_hex 3 _⟩
  rw [shape, shape, plain_programText name isPlain]
  simp only [String.toList_append, List.append_assoc]
  rfl

end Chip8
