/-! Checks and effects in their order.

A procedure changes a state in place and may be refused half way; what it did before that stays
done. Whether a refusal leaves the state as it was is then a matter of order: it does if everything
that can be refused comes before the first effect.
-/

set_option autoImplicit false

namespace Chip8

/-- Checks and effects on a state, in their order. What was done before a refusal stays done. -/
abbrev Procedure (ε S : Type) : Type → Type := ExceptT ε (StateM S)

namespace Procedure

variable {ε ε' S T α β : Type}

def made (p : Procedure ε S α) (s : S) : Except ε α × S :=
  StateT.run (ExceptT.run p) s

def refuse (error : ε) : Procedure ε S α :=
  throw error

def check (refusal : ε' → ε) : (found : Option ε') → Procedure ε S Unit
  | some error => refuse (refusal error)
  | none => pure ()

def expect (refusal : ε' → ε) : Except ε' α → Procedure ε S α
  | .error error => refuse (refusal error)
  | .ok a => pure a

def look (view : S → α) : Procedure ε S α := do
  return view (← get)

def change (effect : S → S) : Procedure ε S Unit :=
  modify effect

def act (action : S → α × S) : Procedure ε S α :=
  modifyGet action

/-- A procedure on a part of a state. -/
def within (part : S → T) (put : T → S → S) (refusal : ε' → ε) (p : Procedure ε' T α) :
    Procedure ε S α :=
  ExceptT.mk fun s =>
    let (result, left) := p.made (part s)
    (result.mapError refusal, put left s)

def retold (refusal : ε' → ε) (p : Procedure ε' S α) : Procedure ε S α :=
  within id (fun left _ => left) refusal p

variable (s : S)

@[simp] theorem made_pure (a : α) : made (ε := ε) (pure a) s = (.ok a, s) := rfl

@[simp] theorem made_look (view : S → α) : made (ε := ε) (look view) s = (.ok (view s), s) := rfl

@[simp] theorem made_change (effect : S → S) :
    made (ε := ε) (change effect) s = (.ok (), effect s) := rfl

@[simp] theorem made_act (action : S → α × S) :
    made (ε := ε) (act action) s = (.ok (action s).1, (action s).2) := rfl

@[simp] theorem made_within (part : S → T) (put : T → S → S) (refusal : ε' → ε)
    (p : Procedure ε' T α) :
    made (within part put refusal p) s =
      ((p.made (part s)).1.mapError refusal, put (p.made (part s)).2 s) := rfl

@[simp] theorem made_bind (p : Procedure ε S α) (next : α → Procedure ε S β) :
    made (p >>= next) s =
      match p.made s with
      | (.ok a, left) => (next a).made left
      | (.error error, left) => (.error error, left) := by
  change StateT.run (ExceptT.bind p next) s = _
  simp only [ExceptT.bind, ExceptT.mk, bind, StateT.bind, StateT.run, made, ExceptT.run]
  cases p s with
  | mk result left => cases result <;> rfl

/-! ### What a procedure leaves -/

/-- A refusal leaves the state as it was. -/
def Atomic (p : Procedure ε S α) : Prop :=
  ∀ s error left, p.made s = (.error error, left) → left = s

def Looks (p : Procedure ε S α) : Prop :=
  ∀ s, (p.made s).2 = s

def Certain (p : Procedure ε S α) : Prop :=
  ∀ s, ∃ a left, p.made s = (.ok a, left)

variable {p : Procedure ε S α} {next : α → Procedure ε S β}

theorem Certain.atomic (certain : Certain p) : Atomic p := by
  intro s error left refused
  obtain ⟨a, other, made⟩ := certain s
  cases made.symm.trans refused

theorem Looks.atomic (looks : Looks p) : Atomic p := by
  intro s error left refused
  have kept := looks s
  rw [refused] at kept
  exact kept

/-- Checks may come before. -/
theorem Looks.bind (looks : Looks p) (rest : ∀ a, Atomic (next a)) : Atomic (p >>= next) := by
  intro s error left refused
  have kept := looks s
  rw [made_bind] at refused
  match first : p.made s with
  | (.ok a, other) =>
    rw [first] at kept refused
    obtain rfl : other = s := kept
    exact rest a _ _ _ refused
  | (.error found, other) =>
    rw [first] at kept refused
    cases refused
    exact kept

/-- Effects may come behind. -/
theorem Atomic.bind (atomic : Atomic p) (rest : ∀ a, Certain (next a)) : Atomic (p >>= next) := by
  intro s error left refused
  rw [made_bind] at refused
  match first : p.made s with
  | (.ok a, other) =>
    rw [first] at refused
    obtain ⟨b, last, made⟩ := rest a other
    cases made.symm.trans refused
  | (.error found, other) =>
    rw [first] at refused
    cases refused
    exact atomic _ _ _ first

theorem Certain.bind (certain : Certain p) (rest : ∀ a, Certain (next a)) :
    Certain (p >>= next) := by
  intro s
  obtain ⟨a, left, first⟩ := certain s
  obtain ⟨b, last, second⟩ := rest a left
  exact ⟨b, last, by rw [made_bind, first]; exact second⟩

theorem certain_pure (a : α) : Certain (ε := ε) (S := S) (pure a) :=
  fun s => ⟨a, s, rfl⟩

theorem certain_look (view : S → α) : Certain (ε := ε) (look view) :=
  fun s => ⟨view s, s, rfl⟩

theorem certain_change (effect : S → S) : Certain (ε := ε) (change effect) :=
  fun s => ⟨(), effect s, rfl⟩

theorem certain_act (action : S → α × S) : Certain (ε := ε) (act action) :=
  fun s => ⟨(action s).1, (action s).2, rfl⟩

theorem looks_look (view : S → α) : Looks (ε := ε) (look view) :=
  fun _ => rfl

theorem looks_refuse (error : ε) : Looks (S := S) (α := α) (refuse error) :=
  fun _ => rfl

theorem looks_check (refusal : ε' → ε) (found : Option ε') :
    Looks (S := S) (check refusal found) := by
  intro s
  cases found <;> rfl

theorem looks_expect (refusal : ε' → ε) (result : Except ε' α) :
    Looks (S := S) (expect refusal result) := by
  intro s
  cases result <;> rfl

/-! ### Parts of a state -/

variable {part : S → T} {put : T → S → S} {refusal : ε' → ε} {q : Procedure ε' T α}

theorem Atomic.within (atomic : Atomic q) (same : ∀ s, put (part s) s = s) :
    Atomic (within part put refusal q) := by
  intro s error left refused
  rw [made_within] at refused
  match made : q.made (part s) with
  | (.ok a, other) =>
    rw [made] at refused
    cases refused
  | (.error found, other) =>
    rw [made] at refused
    cases refused
    rw [atomic _ _ _ made]
    exact same s

end Procedure

end Chip8
