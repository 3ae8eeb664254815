/-! Finite sets of addresses, kept in ascending order. -/

set_option autoImplicit false

namespace Chip8

def insertAscending (a : Int) : List Int → List Int
  | [] => [a]
  | b :: bs =>
    if a < b then a :: b :: bs else if a = b then b :: bs else b :: insertAscending a bs

theorem mem_insertAscending {a b : Int} {bs : List Int} :
    a ∈ insertAscending b bs ↔ a = b ∨ a ∈ bs := by
  induction bs with
  | nil => simp [insertAscending]
  | cons c cs ih =>
    unfold insertAscending
    split
    · simp
    · split
      · simp_all
      · simp only [List.mem_cons, ih]
        constructor <;> rintro (h | h | h) <;> simp [h]

theorem pairwise_insertAscending {a : Int} {bs : List Int} (ascending : bs.Pairwise (· < ·)) :
    (insertAscending a bs).Pairwise (· < ·) := by
  induction bs with
  | nil => simp [insertAscending]
  | cons b bs ih =>
    have tail := List.pairwise_cons.1 ascending
    unfold insertAscending
    split
    · next below =>
      refine List.pairwise_cons.2 ⟨fun c member => ?_, ascending⟩
      rcases List.mem_cons.1 member with rfl | member
      · exact below
      · exact Int.lt_trans below (tail.1 c member)
    · split
      · exact ascending
      · refine List.pairwise_cons.2 ⟨fun c member => ?_, ih tail.2⟩
        rcases mem_insertAscending.1 member with rfl | member
        · omega
        · exact tail.1 c member

/-- A finite set of addresses. -/
structure AddressSet where
  toList : List Int
  ascending : toList.Pairwise (· < ·)
  deriving DecidableEq

namespace AddressSet

def empty : AddressSet :=
  ⟨[], .nil⟩

instance : Membership Int AddressSet :=
  ⟨fun s a => a ∈ s.toList⟩

instance (a : Int) (s : AddressSet) : Decidable (a ∈ s) :=
  inferInstanceAs (Decidable (a ∈ s.toList))

def insert (s : AddressSet) (a : Int) : AddressSet :=
  ⟨insertAscending a s.toList, pairwise_insertAscending s.ascending⟩

def erase (s : AddressSet) (a : Int) : AddressSet :=
  ⟨s.toList.filter (· ≠ a), s.ascending.filter _⟩

def size (s : AddressSet) : Nat :=
  s.toList.length

@[simp] theorem not_mem_empty (a : Int) : a ∉ empty :=
  List.not_mem_nil

@[simp] theorem mem_insert {s : AddressSet} {a b : Int} : a ∈ s.insert b ↔ a = b ∨ a ∈ s :=
  mem_insertAscending

@[simp] theorem mem_erase {s : AddressSet} {a b : Int} : a ∈ s.erase b ↔ a ∈ s ∧ a ≠ b := by
  change a ∈ s.toList.filter (· ≠ b) ↔ a ∈ s.toList ∧ a ≠ b
  simp

end AddressSet

end Chip8
