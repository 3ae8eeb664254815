/-! Limits of the machine that this runs on. -/

set_option autoImplicit false

namespace Chip8.Limits

def maxInt32 : Int := 2147483647

def maxInt64 : Int := 9223372036854775807

/-- The most bytes that are set aside at once. -/
def maxBytes : Int := 2147483648

def isInt64 (n : Int) : Bool :=
  -maxInt64 - 1 ≤ n && n ≤ maxInt64

theorem isInt64_eq_true_iff {n : Int} :
    isInt64 n = true ↔ -9223372036854775808 ≤ n ∧ n ≤ 9223372036854775807 := by
  rw [isInt64, Bool.and_eq_true, decide_eq_true_eq, decide_eq_true_eq, maxInt64]
  omega

end Chip8.Limits
