/-! Control sequences of terminals.

A control sequence is an escape, an opening bracket, any number of parameter characters and a letter,
all of them ASCII. A text is made plain by dropping the sequences in it. What is left is not looked at
again, even if it reads as a sequence.
-/

set_option autoImplicit false

namespace Chip8.Text.ControlSequence

def escape : Char := '\x1b'

/-- Whether a character may stand between the bracket and the letter. -/
def isParameter (c : Char) : Bool :=
  c.isDigit || c = ';' || c = '?'

/-- Drop the sequences of a text. What was read of a sequence that has not ended is held, last
character first. -/
def drop : (held : List Char) → List Char → List Char
  | held, [] => held.reverse
  | held, c :: cs =>
    if c = escape then held.reverse ++ drop [escape] cs
    else
      match held with
      | [] => c :: drop [] cs
      | [first] => if c = '[' then drop [c, first] cs else first :: c :: drop [] cs
      | held =>
        if isParameter c then drop (c :: held) cs
        else if c.isAlpha then drop [] cs
        else held.reverse ++ c :: drop [] cs

/-- The text without its control sequences. -/
def plain (text : String) : String :=
  String.ofList (drop [] text.toList)

theorem drop_eq_self {cs : List Char} (absent : escape ∉ cs) : drop [] cs = cs := by
  induction cs with
  | nil => rfl
  | cons c cs ih =>
    rw [List.mem_cons, not_or] at absent
    rw [drop, if_neg (Ne.symm absent.1), ih absent.2]

theorem plain_eq_self {text : String} (absent : escape ∉ text.toList) : plain text = text := by
  rw [plain, drop_eq_self absent, String.ofList_toList]

end Chip8.Text.ControlSequence
