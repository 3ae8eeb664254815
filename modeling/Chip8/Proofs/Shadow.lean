import Chip8.Proofs.Coherence

/-! An interpreter with a cache and one without, side by side.

The plain interpreter shadows the cached one: each does what the other does, and the plain one reads
memory at least as often. Steps and runs keep the two together.
-/

set_option autoImplicit false

namespace Chip8

variable {σ : Type} {size : Nat}

/-! ### Counters -/

structure Tally.AtMost (t u : Tally size) : Prop where
  writes : t.writes = u.writes
  reads : ∀ a (inside : a < size), t.reads[a] ≤ u.reads[a]

namespace Tally

variable {t u : Tally size}

theorem AtMost.refl (t : Tally size) : t.AtMost t :=
  ⟨rfl, fun _ _ => Nat.le_refl _⟩

theorem AtMost.read (atMost : t.AtMost u) (start count : Nat) :
    (t.read start count).AtMost (u.read start count) where
  writes := atMost.writes
  reads a inside := by
    simp only [Tally.read, getElem_countFrom _ _ _ _ inside]
    exact Nat.add_le_add_right (atMost.reads a inside) _

theorem AtMost.read_right (atMost : t.AtMost u) (start count : Nat) :
    t.AtMost (u.read start count) where
  writes := atMost.writes
  reads a inside := by
    simp only [Tally.read, getElem_countFrom _ _ _ _ inside]
    exact Nat.le_add_right_of_le (atMost.reads a inside)

theorem AtMost.write (atMost : t.AtMost u) (start count : Nat) :
    (t.write start count).AtMost (u.write start count) where
  writes := by simp only [Tally.write, atMost.writes]
  reads := atMost.reads

end Tally

namespace Memory

variable {m n : Memory size}

/-- Both memories are watched, and one was read no more often, or neither is. -/
def CountedAtMost (m n : Memory size) : Prop :=
  Option.Rel Tally.AtMost m.tally n.tally

theorem CountedAtMost.refl (m : Memory size) : m.CountedAtMost m := by
  unfold CountedAtMost
  cases m.tally with
  | none => exact .none
  | some tally => exact .some (Tally.AtMost.refl tally)

theorem CountedAtMost.map (counted : m.CountedAtMost n) {m' n' : Memory size}
    {f g : Tally size → Tally size} (left : m'.tally = m.tally.map f)
    (right : n'.tally = n.tally.map g)
    (ordered : ∀ t u : Tally size, t.AtMost u → (f t).AtMost (g u)) : m'.CountedAtMost n' := by
  unfold CountedAtMost at counted ⊢
  rw [left, right]
  generalize m.tally = t, n.tally = u at counted ⊢
  cases counted with
  | none => exact .none
  | some atMost => exact .some (ordered _ _ atMost)

theorem CountedAtMost.countRead (counted : m.CountedAtMost n) (start count : Nat) :
    (m.countRead start count).CountedAtMost (n.countRead start count) :=
  counted.map rfl rfl fun _ _ atMost => atMost.read start count

theorem CountedAtMost.countRead_right (counted : m.CountedAtMost n) (start count : Nat) :
    m.CountedAtMost (n.countRead start count) :=
  counted.map (f := id) (by simp) rfl fun _ _ atMost => atMost.read_right start count

theorem CountedAtMost.store (counted : m.CountedAtMost n) (start : Nat) (data : List UInt8) :
    (m.store start data).CountedAtMost (n.store start data) :=
  counted.map rfl rfl fun _ _ atMost => atMost.write start data.length

end Memory

/-! ### Machines -/

namespace Machine

structure Shadows (cached plain : Machine size) : Prop where
  same : cached.bare = plain.bare
  counts : cached.memory.CountedAtMost plain.memory

variable {cached plain : Machine size}

theorem Shadows.processor (shadows : cached.Shadows plain) :
    cached.processor = plain.processor := by
  have same := congrArg Machine.processor shadows.same
  exact same

theorem Shadows.decoded (shadows : cached.Shadows plain) (a : Int) :
    cached.decoded a = plain.decoded a :=
  decoded_of_bare_eq shadows.same a

theorem Shadows.readWord (shadows : cached.Shadows plain) (a : Int) :
    (cached.readWord a).2.Shadows (plain.readWord a).2 where
  same := by rw [bare_readWord, bare_readWord, shadows.same]
  counts := by
    have counts := shadows.counts
    obtain ⟨p, memory, screen, keypad, random⟩ := cached
    obtain ⟨p', memory', screen', keypad', random'⟩ := plain
    unfold Machine.readWord Memory.read
    cases outOfRange? size a 1 with
    | some access => exact counts
    | none =>
      cases outOfRange? size (a + 1) 1 with
      | some access => exact counts.countRead _ _
      | none => exact (counts.countRead _ _).countRead _ _

theorem Shadows.readWord_right (shadows : cached.Shadows plain) (a : Int) :
    cached.Shadows (plain.readWord a).2 where
  same := by rw [bare_readWord, shadows.same]
  counts := by
    have counts := shadows.counts
    obtain ⟨p', memory', screen', keypad', random'⟩ := plain
    unfold Machine.readWord Memory.read
    cases outOfRange? size a 1 with
    | some access => exact counts
    | none =>
      cases outOfRange? size (a + 1) 1 with
      | some access => exact counts.countRead_right _ _
      | none => exact (counts.countRead_right _ _).countRead_right _ _

theorem Shadows.poll (shadows : cached.Shadows plain) : cached.poll.Shadows plain.poll where
  same := by rw [← poll_bare, ← poll_bare, shadows.same]
  counts := by
    rw [memory_poll, memory_poll]
    exact shadows.counts

theorem Shadows.onProcessor (shadows : cached.Shadows plain) (change : Processor → Processor) :
    Shadows { cached with processor := change cached.processor }
      { plain with processor := change plain.processor } where
  same := by
    have same :=
      congrArg (fun m : Machine size => { m with processor := change m.processor }) shadows.same
    exact same
  counts := shadows.counts

theorem Shadows.execute_error (shadows : cached.Shadows plain) {i : Instruction} {cause : Cause}
    (failed : cached.execute i = .error cause) : plain.execute i = .error cause := by
  have bare := congrArg bareEffect failed
  rw [← execute_bare, shadows.same, execute_bare] at bare
  cases done : plain.execute i with
  | error other =>
    rw [done] at bare
    cases bare
    rfl
  | ok result =>
    rw [done] at bare
    cases bare

theorem Shadows.execute_ok (shadows : cached.Shadows plain) {i : Instruction} {m : Machine size}
    {stores : List Store} (done : cached.execute i = .ok (m, stores)) :
    ∃ n, plain.execute i = .ok (n, stores) ∧ m.Shadows n := by
  have bare := congrArg bareEffect done
  rw [← execute_bare, shadows.same, execute_bare] at bare
  cases other : plain.execute i with
  | error cause =>
    rw [other] at bare
    cases bare
  | ok result =>
    obtain ⟨n, stores'⟩ := result
    rw [other] at bare
    obtain ⟨same, rfl⟩ := Prod.mk.inj (Except.ok.inj bare)
    refine ⟨n, rfl, same.symm, ?_⟩
    -- Sameness without counters says nothing of counts: these come from the transfer itself.
    rw [(Machine.execute_ok done).1, (Machine.execute_ok other).1, shadows.processor]
    unfold transferred
    rw [shadows.processor]
    exact (shadows.counts.countRead _ _).store _ _

end Machine

/-! ### Interpreters -/

namespace Interpreter

/-- An interpreter with a sound cache beside one without a cache. -/
structure Shadows (cached plain : Interpreter σ size) : Prop where
  machine : cached.machine.Shadows plain.machine
  coherent : cached.Coherent
  uncached : plain.cache = none
  hooks : cached.hooks = plain.hooks
  observer : cached.observer = plain.observer
  stopRequested : cached.stopRequested = plain.stopRequested

variable {cached plain left : Interpreter σ size}

theorem kept_none (pc : Int) (result : Except Cause Decoded) : kept none pc result = none := by
  cases result <;> rfl

/-- A cached instruction is the one in memory, which only the plain interpreter reads. -/
theorem Shadows.fetch (shadows : cached.Shadows plain) {pc : Int} {result : Except Cause Decoded}
    (fetch : cached.fetch pc = (result, left)) :
    ∃ right, plain.fetch pc = (result, right) ∧ left.Shadows right := by
  obtain ⟨found, coherent, -⟩ := shadows.coherent.fetch fetch
  have miss : plain.cache.bind (·[pc]?) = none := by rw [shadows.uncached, Option.bind_none]
  refine ⟨{ plain with
    machine := (plain.machine.readWord pc).2
    cache := kept plain.cache pc (plain.machine.decoded pc) }, ?_, ?_⟩
  · rw [fetch_of_miss miss, ← shadows.machine.decoded pc, ← found]
  · have machine : left.machine.Shadows (plain.machine.readWord pc).2 := by
      -- After a hit the plain machine alone has read the word; after a miss both have.
      cases look : cached.cache.bind (·[pc]?) with
      | some decoded =>
        rw [fetch_of_hit look] at fetch
        cases fetch
        exact shadows.machine.readWord_right pc
      | none =>
        rw [fetch_of_miss look] at fetch
        cases fetch
        exact shadows.machine.readWord pc
    rw [fetch_keeps fetch]
    exact {
      machine
      coherent := coherent.of_bytes_eq rfl rfl
      uncached := by rw [shadows.uncached, kept_none]
      hooks := shadows.hooks
      observer := shadows.observer
      stopRequested := shadows.stopRequested }

theorem Shadows.ask (shadows : cached.Shadows plain) {pc : Int} {word : Word} {go : Bool}
    (ask : cached.ask pc word = (go, left)) :
    ∃ right, plain.ask pc word = (go, right) ∧ left.Shadows right := by
  unfold Interpreter.ask at ask ⊢
  rw [← shadows.hooks, ← shadows.observer]
  split at ask
  · cases ask
    exact ⟨plain, rfl, shadows⟩
  · cases ask
    refine ⟨_, rfl, ?_⟩
    exact { shadows with
      coherent := shadows.coherent.of_bytes_eq rfl rfl
      hooks := rfl
      observer := rfl }

theorem Shadows.passed (shadows : cached.Shadows plain) (pc : Int) :
    (cached.passed pc).Shadows (plain.passed pc) :=
  { shadows with
    machine := shadows.machine.onProcessor ({ · with pc := pc + 2 })
    coherent := shadows.coherent.passed pc }

theorem foldl_tell_congr (stores : List Store) {i j : Interpreter σ size} (hooks : i.hooks = j.hooks)
    (observer : i.observer = j.observer) (stops : i.stopRequested = j.stopRequested) :
    (stores.foldl tell i).observer = (stores.foldl tell j).observer ∧
      (stores.foldl tell i).stopRequested = (stores.foldl tell j).stopRequested := by
  induction stores generalizing i j with
  | nil => exact ⟨observer, stops⟩
  | cons store stores ih =>
    rw [List.foldl_cons, List.foldl_cons]
    apply ih
    · rw [tell_eq i, tell_eq j]
      exact hooks
    · unfold tell
      rw [hooks, observer]
      split <;> simp [observer]
    · unfold tell
      rw [hooks, observer, stops]
      split <;> simp [stops]

theorem noteStores_congr (stores : List Store) {i j : Interpreter σ size} (hooks : i.hooks = j.hooks)
    (observer : i.observer = j.observer) (stops : i.stopRequested = j.stopRequested) :
    (i.noteStores stores).observer = (j.noteStores stores).observer ∧
      (i.noteStores stores).stopRequested = (j.noteStores stores).stopRequested := by
  unfold noteStores
  apply foldl_tell_congr
  · exact hooks
  · exact observer
  · exact stops

theorem Shadows.noteStores (shadows : cached.Shadows plain) {instruction : Instruction}
    {m n : Machine size} {stores : List Store}
    (done : cached.machine.execute instruction = .ok (m, stores)) (machines : m.Shadows n) :
    ({ cached with machine := m }.noteStores stores).Shadows
      ({ plain with machine := n }.noteStores stores) := by
  have told := noteStores_congr stores (i := { cached with machine := m })
    (j := { plain with machine := n }) shadows.hooks shadows.observer shadows.stopRequested
  exact {
    machine := by rw [machine_noteStores, machine_noteStores]; exact machines
    coherent := shadows.coherent.executed done
    uncached := by rw [cache_noteStores, shadows.uncached, Option.map_none]
    hooks := by rw [hooks_noteStores, hooks_noteStores]; exact shadows.hooks
    observer := told.1
    stopRequested := told.2 }

/-- The plain interpreter follows each step. -/
theorem Shadows.step (shadows : cached.Shadows plain) {result : Except Fault Bool}
    (step : cached.step = (result, left)) :
    ∃ right, plain.step = (result, right) ∧ left.Shadows right := by
  have same := shadows.machine.processor
  -- Both fetch the same, one of them perhaps from its cache, and go the same way from there.
  cases stepped step with
  | polled waiting =>
    refine ⟨_, (Stepped.polled (same ▸ waiting)).step_eq, ?_⟩
    exact { shadows with
      machine := shadows.machine.poll
      coherent := shadows.coherent.of_bytes_eq (by rw [Machine.memory_poll]) rfl }
  | unfetched active fetch =>
    obtain ⟨fetched, fetch, follows⟩ := shadows.fetch fetch
    rw [same] at active fetch ⊢
    exact ⟨fetched, (Stepped.unfetched active fetch).step_eq, follows⟩
  | vetoed active fetch ask =>
    obtain ⟨fetched, fetch, follows⟩ := shadows.fetch fetch
    obtain ⟨asked, ask, follows⟩ := follows.ask ask
    rw [same] at active fetch ask
    exact ⟨asked, (Stepped.vetoed active fetch ask).step_eq, follows⟩
  | failed active fetch ask failed =>
    obtain ⟨fetched, fetch, follows⟩ := shadows.fetch fetch
    obtain ⟨asked, ask, follows⟩ := follows.ask ask
    have follows := follows.passed cached.machine.processor.pc
    have failed := follows.machine.execute_error failed
    rw [same] at active fetch ask failed follows ⊢
    exact ⟨_, (Stepped.failed active fetch ask failed).step_eq, follows⟩
  | executed active fetch ask done =>
    obtain ⟨fetched, fetch, follows⟩ := shadows.fetch fetch
    obtain ⟨asked, ask, follows⟩ := follows.ask ask
    have moved := follows.passed cached.machine.processor.pc
    obtain ⟨n, ran, machines⟩ := moved.machine.execute_ok done
    have left := moved.noteStores done machines
    rw [same] at active fetch ask ran
    exact ⟨_, (Stepped.executed active fetch ask ran).step_eq, left⟩

theorem Shadows.ran (shadows : cached.Shadows plain) {steps count : Nat} {halt : Halt}
    (way : Ran cached steps halt count left) :
    ∃ right, Ran plain steps halt count right ∧ left.Shadows right := by
  -- The plain interpreter varies with the induction: after a step it is the one that shadows.
  induction way generalizing plain with
  | completed => exact ⟨plain, .completed, shadows⟩
  | failed step =>
    obtain ⟨right, step, follows⟩ := shadows.step step
    exact ⟨right, .failed step, follows⟩
  | vetoed step =>
    obtain ⟨right, step, follows⟩ := shadows.step step
    exact ⟨right, .vetoed step, follows⟩
  | requested step requested =>
    obtain ⟨right, step, follows⟩ := shadows.step step
    refine ⟨_, .requested step (follows.stopRequested ▸ requested), ?_⟩
    exact { follows with stopRequested := rfl, coherent := follows.coherent.of_bytes_eq rfl rfl }
  | more step quiet rest ih =>
    obtain ⟨next, step, follows⟩ := shadows.step step
    obtain ⟨right, rest, follows'⟩ := ih follows
    exact ⟨right, .more step (follows.stopRequested ▸ quiet) rest, follows'⟩

end Interpreter

end Chip8
