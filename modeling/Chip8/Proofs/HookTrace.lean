import Chip8.Proofs.FaultConditions
import Chip8.Proofs.StepOrder

/-! What hooks are told, and in which order.

The calls of hooks are a full account of a run. Each instruction that is fetched and decoded is asked
for once, before it does anything, and each byte that it stores is told after that; storing what the
calls tell gives the memory that the run leaves. A request to stop is pending just when a store was
refused since the last one was taken.
-/

set_option autoImplicit false

namespace Chip8

variable {σ : Type} {size : Nat}

/-! ### Calls -/

namespace HookCall

def stored? : HookCall → Option Store
  | asked _ _ => none
  | told store _ => some store

def refused : HookCall → Bool
  | asked _ _ => false
  | told _ go => !go

end HookCall

def replay (bytes : Vector UInt8 size) : List HookCall → Vector UInt8 size
  | [] => bytes
  | .asked _ _ :: calls => replay bytes calls
  | .told store _ :: calls => replay (bytes.setIfInBounds store.address store.value) calls

theorem replay_append (bytes : Vector UInt8 size) (calls more : List HookCall) :
    replay bytes (calls ++ more) = replay (replay bytes calls) more := by
  induction calls generalizing bytes with
  | nil => rfl
  | cons call calls ih =>
    cases call with
    | asked pc word => exact ih bytes
    | told store go => exact ih _

theorem replay_of_range {data : List UInt8} {start : Nat} {calls : List HookCall}
    (told : calls.map HookCall.stored? = (Store.range start data).map some)
    (bytes : Vector UInt8 size) : replay bytes calls = storeFrom bytes start data := by
  induction data generalizing start calls bytes with
  | nil =>
    obtain rfl := List.map_eq_nil_iff.1 told
    rfl
  | cons b data ih =>
    cases calls with
    | nil => cases told
    | cons call calls =>
      obtain ⟨first, rest⟩ := List.cons.inj told
      cases call with
      | asked pc word => cases first
      | told store go =>
        cases first
        exact ih rest _

theorem Machine.replay_execute {m n : Machine size} {i : Instruction} {stores : List Store}
    {calls : List HookCall} (done : m.execute i = .ok (n, stores))
    (told : calls.map HookCall.stored? = stores.map some) :
    n.memory.bytes = replay m.memory.bytes calls ∧
      ∀ store go, .told store go ∈ calls → store.address < size := by
  obtain ⟨memory, rfl, room⟩ := execute_ok done
  constructor
  · rw [memory, replay_of_range told]
    rfl
  · intro store go member
    have among : some store ∈ calls.map HookCall.stored? := List.mem_map_of_mem member
    simp only [told, List.mem_map, Option.some.injEq, exists_eq_right] at among
    obtain ⟨reached, found⟩ := Store.mem_range.1 among
    have offset := (List.getElem?_eq_some_iff.1 found).1
    rcases room with room | none
    · omega
    · simp [none] at offset

/-! ### The calls of a step -/

inductive Machine.Heard (m : Machine size) : List HookCall → Prop where
  | waiting : m.processor.waiting = true → Heard m []
  | undecoded {cause : Cause} : m.processor.waiting = false →
      m.decoded m.processor.pc = .error cause → Heard m []
  | failed {word : Word} {i : Instruction} {cause : Cause} : m.processor.waiting = false →
      m.HasWord m.processor.pc word → Instruction.decode word = some i →
        m.past.execute i = .error cause → Heard m [.asked m.processor.pc word]
  | executed {word : Word} {i : Instruction} {n : Machine size} {stores : List Store}
      {calls : List HookCall} : m.processor.waiting = false →
      m.HasWord m.processor.pc word → Instruction.decode word = some i →
        m.past.execute i = .ok (n, stores) → calls.map HookCall.stored? = stores.map some →
          Heard m (.asked m.processor.pc word :: calls)

theorem Machine.heard_bare {m : Machine size} {heard : List HookCall} (calls : m.bare.Heard heard) :
    m.Heard heard := by
  have past : m.bare.past = m.past.bare := rfl
  cases calls with
  | waiting waiting => exact .waiting waiting
  | undecoded active undecoded =>
    rw [decoded_bare] at undecoded
    exact .undecoded active undecoded
  | @failed word i cause active there known failed =>
    rw [past, execute_bare] at failed
    cases done : m.past.execute i with
    | ok result =>
      rw [done] at failed
      cases failed
    | error cause => exact .failed active ⟨there.nonneg, there.inside, there.bytes⟩ known done
  | @executed word i n stores calls active there known ran told =>
    rw [past, execute_bare] at ran
    cases done : m.past.execute i with
    | error cause =>
      rw [done] at ran
      cases ran
    | ok result =>
      rw [done] at ran
      cases ran
      exact .executed active ⟨there.nonneg, there.inside, there.bytes⟩ known done told

/-! ### Recording -/

/-- Hooks that also write down every call, oldest first, behind what they observe. -/
def Hooks.recorded (h : Hooks σ) : Hooks (σ × List HookCall) where
  onInstruction := h.onInstruction.map fun hook (state, calls) pc word =>
    let (go, state) := hook state pc word
    (go, state, calls ++ [.asked pc word])
  onStore := h.onStore.map fun hook (state, calls) store =>
    let (go, state) := hook state store
    (go, state, calls ++ [.told store go])

/-- The hooks with every instruction refused. -/
def Hooks.refusing (h : Hooks σ) : Hooks σ where
  onInstruction := h.onInstruction.map fun hook state pc word => (false, (hook state pc word).2)
  onStore := h.onStore

/-- Hooks of both kinds, of which the first lets every instruction run. -/
structure Hooks.Watched (h : Hooks σ) : Prop where
  asks : ∃ hook, h.onInstruction = some hook ∧ ∀ state pc word, (hook state pc word).1 = true
  tells : h.onStore.isSome = true

namespace Interpreter

def recorded (i : Interpreter σ size) : Interpreter (σ × List HookCall) size :=
  ⟨i.machine, i.cache, i.hooks.recorded, (i.observer, []), i.stopRequested⟩

def calls (r : Interpreter (σ × List HookCall) size) : List HookCall :=
  r.observer.2

/-- The interpreter with some hooks of which another one keeps a record. -/
def unrecorded (h : Hooks σ) (r : Interpreter (σ × List HookCall) size) : Interpreter σ size :=
  ⟨r.machine, r.cache, h, r.observer.1, r.stopRequested⟩

/-- What a host may do without touching memory: run a step, take a request to stop, reset, or set
the processor and the keys to whatever it likes. -/
inductive Turn where
  | step
  | takeStopRequest
  | reset
  | arrange (processor : Processor) (keypad : Keypad)

def Turn.clears : Turn → Bool
  | takeStopRequest | reset => true
  | step | arrange _ _ => false

def turn (i : Interpreter σ size) : Turn → Interpreter σ size
  | .step => i.step.2
  | .takeStopRequest => i.takeStopRequest.2
  | .reset => i.reset
  | .arrange processor keypad => { i with machine := { i.machine with processor, keypad } }

def turns (i : Interpreter σ size) (ts : List Turn) : Interpreter σ size :=
  ts.foldl turn i

@[simp] theorem turns_nil (i : Interpreter σ size) : i.turns [] = i := rfl

@[simp] theorem turns_cons (i : Interpreter σ size) (t : Turn) (ts : List Turn) :
    i.turns (t :: ts) = (i.turn t).turns ts := rfl

theorem turns_append (i : Interpreter σ size) (ts us : List Turn) :
    i.turns (ts ++ us) = (i.turns ts).turns us :=
  List.foldl_append

/-! ### A record changes nothing -/

variable {h : Hooks σ} {r s : Interpreter (σ × List HookCall) size}

theorem fetch_unrecorded (h : Hooks σ) (r : Interpreter (σ × List HookCall) size) (pc : Int) :
    (r.unrecorded h).fetch pc = ((r.fetch pc).1, (r.fetch pc).2.unrecorded h) := by
  cases look : r.cache.bind (·[pc]?) with
  | some decoded => rw [fetch_of_hit look, fetch_of_hit (i := r.unrecorded h) look]
  | none =>
    rw [fetch_of_miss look, fetch_of_miss (i := r.unrecorded h) look]
    rfl

theorem ask_unrecorded (hooks : r.hooks = h.recorded) (pc : Int) (word : Word) :
    (r.unrecorded h).ask pc word = ((r.ask pc word).1, (r.ask pc word).2.unrecorded h) := by
  simp only [ask, hooks, unrecorded, Hooks.recorded]
  cases h.onInstruction <;> rfl

theorem tell_unrecorded (hooks : r.hooks = h.recorded) (store : Store) :
    (r.unrecorded h).tell store = (r.tell store).unrecorded h := by
  simp only [tell, hooks, unrecorded, Hooks.recorded]
  cases h.onStore <;> rfl

theorem foldl_tell_unrecorded (hooks : r.hooks = h.recorded) (stores : List Store) :
    stores.foldl tell (r.unrecorded h) = (stores.foldl tell r).unrecorded h := by
  induction stores generalizing r with
  | nil => rfl
  | cons store stores ih =>
    have kept : (r.tell store).hooks = h.recorded := by
      rw [tell_eq]
      exact hooks
    rw [List.foldl_cons, List.foldl_cons, tell_unrecorded hooks, ih kept]

theorem noteStores_unrecorded (hooks : r.hooks = h.recorded) (stores : List Store) :
    (r.noteStores stores).unrecorded h = (r.unrecorded h).noteStores stores := by
  unfold noteStores
  rw [← foldl_tell_unrecorded]
  · rfl
  · exact hooks

theorem step_unrecorded (hooks : r.hooks = h.recorded) {result : Except Fault Bool}
    (step : r.step = (result, s)) : (r.unrecorded h).step = (result, s.unrecorded h) := by
  have fetch_unrecorded {result fetched} (fetch : r.fetch r.machine.processor.pc = (result, fetched)) :
      (r.unrecorded h).fetch r.machine.processor.pc = (result, fetched.unrecorded h) := by
    rw [r.fetch_unrecorded h, fetch]
  have ask_unrecorded {word} {fetched asked : Interpreter (σ × List HookCall) size} {result go}
      (fetch : r.fetch r.machine.processor.pc = (result, fetched))
      (ask : fetched.ask r.machine.processor.pc word = (go, asked)) :
      (fetched.unrecorded h).ask r.machine.processor.pc word = (go, asked.unrecorded h) := by
    have hooks : fetched.hooks = h.recorded := by
      rw [fetch_keeps fetch]
      exact hooks
    rw [ask_unrecorded hooks, ask]
  apply Stepped.step_eq
  cases stepped step with
  | polled waiting => exact .polled waiting
  | unfetched active fetch => exact .unfetched (i := r.unrecorded h) active (fetch_unrecorded fetch)
  | vetoed active fetch ask =>
    exact .vetoed (i := r.unrecorded h) active (fetch_unrecorded fetch) (ask_unrecorded fetch ask)
  | failed active fetch ask failed =>
    exact .failed (i := r.unrecorded h) active (fetch_unrecorded fetch) (ask_unrecorded fetch ask)
      failed
  | executed active fetch ask done =>
    have ran := Stepped.executed (i := r.unrecorded h) active (fetch_unrecorded fetch)
      (ask_unrecorded fetch ask) done
    rw [noteStores_unrecorded (by rw [ask_keeps ask, fetch_keeps fetch]; exact hooks)]
    exact ran

theorem hooks_turn (i : Interpreter σ size) (t : Turn) : (i.turn t).hooks = i.hooks := by
  cases t with
  | step =>
    have step : i.step = (i.step.1, i.step.2) := rfl
    exact hooks_step step
  | _ => rfl

theorem hooks_turns (i : Interpreter σ size) (ts : List Turn) : (i.turns ts).hooks = i.hooks := by
  induction ts generalizing i with
  | nil => rfl
  | cons t ts ih => rw [turns_cons, ih, hooks_turn]

theorem turn_unrecorded (hooks : r.hooks = h.recorded) (t : Turn) :
    (r.unrecorded h).turn t = (r.turn t).unrecorded h := by
  cases t with
  | step =>
    have step : r.step = (r.step.1, r.step.2) := rfl
    exact congrArg Prod.snd (step_unrecorded hooks step)
  | _ => rfl

theorem turns_unrecorded (hooks : r.hooks = h.recorded) (ts : List Turn) :
    (r.unrecorded h).turns ts = (r.turns ts).unrecorded h := by
  induction ts generalizing r with
  | nil => rfl
  | cons t ts ih =>
    rw [turns_cons, turns_cons, turn_unrecorded hooks, ih ((hooks_turn r t).trans hooks)]

/-! ### What calls tell of -/

structure Noted (r : Interpreter (σ × List HookCall) size) (heard : List HookCall)
    (s : Interpreter (σ × List HookCall) size) : Prop where
  calls : s.calls = r.calls ++ heard
  bytes : s.machine.memory.bytes = replay r.machine.memory.bytes heard
  inside : ∀ store go, .told store go ∈ heard → store.address < size

theorem Noted.quiet (calls : s.calls = r.calls)
    (bytes : s.machine.memory.bytes = r.machine.memory.bytes) : Noted r [] s where
  calls := by rw [calls, List.append_nil]
  bytes := bytes
  inside store go member := absurd member List.not_mem_nil

theorem Noted.trans {first rest : List HookCall} {t : Interpreter (σ × List HookCall) size}
    (earlier : Noted r first s) (later : Noted s rest t) : Noted r (first ++ rest) t where
  calls := by rw [later.calls, earlier.calls, List.append_assoc]
  bytes := by rw [later.bytes, earlier.bytes, replay_append]
  inside store go member := by
    rcases List.mem_append.1 member with member | member
    · exact earlier.inside store go member
    · exact later.inside store go member

theorem ask_recorded (watched : h.Watched) (hooks : r.hooks = h.recorded) (pc : Int) (word : Word) :
    (r.ask pc word).1 = true ∧ (r.ask pc word).2.calls = r.calls ++ [.asked pc word] := by
  obtain ⟨hook, present, goes⟩ := watched.asks
  simp only [ask, hooks, Hooks.recorded, present, Option.map_some, calls]
  exact ⟨goes _ _ _, trivial⟩

theorem tell_recorded (watched : h.Watched) (hooks : r.hooks = h.recorded) (store : Store) :
    ∃ go, (r.tell store).calls = r.calls ++ [.told store go] ∧
      (r.tell store).stopRequested = (r.stopRequested || !go) := by
  obtain ⟨hook, present⟩ := Option.isSome_iff_exists.1 watched.tells
  simp only [tell, hooks, Hooks.recorded, present, Option.map_some, calls]
  exact ⟨_, rfl, rfl⟩

theorem foldl_tell_recorded (watched : h.Watched) (hooks : r.hooks = h.recorded)
    (stores : List Store) :
    ∃ heard, (stores.foldl tell r).calls = r.calls ++ heard ∧
      heard.map HookCall.stored? = stores.map some ∧
      (stores.foldl tell r).stopRequested = (r.stopRequested || heard.any HookCall.refused) := by
  induction stores generalizing r with
  | nil => exact ⟨[], by simp, rfl, by simp⟩
  | cons store stores ih =>
    have kept : (r.tell store).hooks = h.recorded := by
      rw [tell_eq]
      exact hooks
    obtain ⟨go, calls, stops⟩ := tell_recorded watched hooks store
    obtain ⟨heard, calls', stored, stops'⟩ := ih kept
    refine ⟨.told store go :: heard, ?_, ?_, ?_⟩
    · rw [List.foldl_cons, calls', calls, List.append_assoc]
      rfl
    · rw [List.map_cons, stored]
      rfl
    · rw [List.foldl_cons, stops', stops, List.any_cons, Bool.or_assoc]
      rfl

theorem noteStores_recorded (watched : h.Watched) (hooks : r.hooks = h.recorded)
    (stores : List Store) :
    ∃ heard, (r.noteStores stores).calls = r.calls ++ heard ∧
      heard.map HookCall.stored? = stores.map some ∧
      (r.noteStores stores).stopRequested = (r.stopRequested || heard.any HookCall.refused) :=
  foldl_tell_recorded (r := { r with cache := r.cache.map _ }) watched hooks stores

/-- A step without a cache makes the calls that its machine has it make. -/
theorem Advanced.noted (watched : h.Watched) (hooks : r.hooks = h.recorded)
    {result : Except Fault Bool} (way : Advanced r result s) :
    ∃ heard, Noted r heard s ∧ r.machine.Heard heard ∧
      s.stopRequested = (r.stopRequested || heard.any HookCall.refused) := by
  cases way with
  | polled waiting =>
    exact ⟨[], .quiet rfl (by rw [Machine.memory_poll]), .waiting waiting, by simp⟩
  | unfetched active undecoded => exact ⟨[], .quiet rfl rfl, .undecoded active undecoded, by simp⟩
  | @vetoed decoded asked active found ask =>
    -- The first hook lets every instruction run.
    have goes := (ask_recorded watched hooks r.machine.processor.pc decoded.word).1
    rw [ask] at goes
    cases goes
  | @failed decoded asked cause active found ask failed =>
    obtain ⟨there, known⟩ := Machine.decoded_eq_ok_iff.1 found
    have calls := (ask_recorded watched hooks r.machine.processor.pc decoded.word).2
    rw [ask] at calls
    refine ⟨[.asked r.machine.processor.pc decoded.word], ⟨calls, rfl, by simp⟩,
      .failed active there known failed, ?_⟩
    rw [ask_keeps ask]
    simp [HookCall.refused]
  | @executed decoded asked machine stores active found ask done =>
    obtain ⟨there, known⟩ := Machine.decoded_eq_ok_iff.1 found
    have calls := (ask_recorded watched hooks r.machine.processor.pc decoded.word).2
    rw [ask] at calls
    have kept : asked.hooks = h.recorded ∧ asked.stopRequested = r.stopRequested := by
      rw [ask_keeps ask]
      exact ⟨hooks, rfl⟩
    obtain ⟨heard, calls', stored, stops⟩ :=
      noteStores_recorded (r := { asked with machine }) watched kept.1 stores
    obtain ⟨bytes, inside⟩ := Machine.replay_execute done stored
    refine ⟨.asked r.machine.processor.pc decoded.word :: heard, ⟨?_, ?_, ?_⟩,
      .executed active there known done stored, ?_⟩
    · have before : Interpreter.calls { asked with machine } = asked.calls := rfl
      rw [calls', before, calls, List.append_assoc]
      rfl
    · rw [machine_noteStores]
      exact bytes
    · simpa using inside
    · rw [stops, kept.2, List.any_cons]
      rfl

theorem Coherent.noted_step (coherent : r.Coherent) (watched : h.Watched)
    (hooks : r.hooks = h.recorded) {result : Except Fault Bool} (step : r.step = (result, s)) :
    ∃ heard, Noted r heard s ∧ r.machine.Heard heard ∧
      s.stopRequested = (r.stopRequested || heard.any HookCall.refused) := by
  obtain ⟨-, bare⟩ := coherent.step step
  -- Neither the cache nor the counters take part in what is told.
  have kept : r.bare.hooks = h.recorded := hooks
  obtain ⟨heard, noted, calls, stops⟩ := (advanced bare).noted watched kept
  exact ⟨heard, ⟨noted.calls, noted.bytes, noted.inside⟩, Machine.heard_bare calls, stops⟩

theorem Coherent.turn {i : Interpreter σ size} (coherent : i.Coherent) (t : Turn) :
    (i.turn t).Coherent := by
  cases t with
  | step =>
    have step : i.step = (i.step.1, i.step.2) := rfl
    exact (coherent.step step).1
  | takeStopRequest => exact coherent.of_bytes_eq rfl rfl
  | reset =>
    intro cache present
    obtain ⟨before, held, rfl⟩ := Option.map_eq_some_iff.1 present
    exact DecodeCache.sound_empty _
  | arrange processor keypad => exact coherent.of_bytes_eq rfl rfl

theorem Coherent.turns {i : Interpreter σ size} (coherent : i.Coherent) (ts : List Turn) :
    (i.turns ts).Coherent := by
  induction ts generalizing i with
  | nil => exact coherent
  | cons t ts ih => exact ih (coherent.turn t)

/-- A turn that is not a step makes no call. -/
theorem calls_turn (r : Interpreter (σ × List HookCall) size) {t : Turn} (other : t ≠ .step) :
    Noted r [] (r.turn t) := by
  cases t with
  | step => exact absurd rfl other
  | _ => exact .quiet rfl rfl

theorem Coherent.noted_turn (coherent : r.Coherent) (watched : h.Watched)
    (hooks : r.hooks = h.recorded) (t : Turn) :
    ∃ heard, Noted r heard (r.turn t) ∧ (t.clears = false →
      (r.turn t).stopRequested = (r.stopRequested || heard.any HookCall.refused)) := by
  cases t with
  | step =>
    have step : r.step = (r.step.1, r.step.2) := rfl
    obtain ⟨heard, noted, -, stops⟩ := coherent.noted_step watched hooks step
    exact ⟨heard, noted, fun _ => stops⟩
  | arrange processor keypad => exact ⟨[], .quiet rfl rfl, fun _ => (Bool.or_false _).symm⟩
  | takeStopRequest | reset =>
    refine ⟨[], .quiet rfl rfl, fun keeps => ?_⟩
    cases keeps

theorem Coherent.noted_turns (coherent : r.Coherent) (watched : h.Watched)
    (hooks : r.hooks = h.recorded) (ts : List Turn) :
    ∃ heard, Noted r heard (r.turns ts) ∧ ((∀ t ∈ ts, t.clears = false) →
      (r.turns ts).stopRequested = (r.stopRequested || heard.any HookCall.refused)) := by
  induction ts generalizing r with
  | nil => exact ⟨[], .quiet rfl rfl, fun _ => by simp⟩
  | cons t ts ih =>
    obtain ⟨first, noted, stops⟩ := coherent.noted_turn watched hooks t
    obtain ⟨rest, noted', stops'⟩ := ih (coherent.turn t) ((hooks_turn r t).trans hooks)
    refine ⟨first ++ rest, noted.trans noted', fun keeps => ?_⟩
    have now := stops (keeps t List.mem_cons_self)
    have later := stops' fun u member => keeps u (.tail _ member)
    rw [turns_cons, later, now, List.any_append, Bool.or_assoc]

end Interpreter

/-! ### What calls find -/

/-- A call finds the machine as it is before a step if it asks, and as the step leaves it if it
tells. -/
def Sighting.InTime (before after : Machine size) (sighting : Sighting size) : Prop :=
  match sighting.call with
  | .asked _ _ => sighting.machine.bare = before.bare
  | .told _ _ => sighting.machine = after

namespace Logged

variable {h : Hooks σ} {s t left : Logged (σ × List HookCall) size}

structure Grown (s left : Logged (σ × List HookCall) size) (new : List (Sighting size)) : Prop where
  log : left.log = s.log ++ new
  calls : left.interpreter.calls = s.interpreter.calls ++ new.map (·.call)

theorem Grown.still (log : left.log = s.log)
    (observer : left.interpreter.observer = s.interpreter.observer) : Grown s left [] where
  log := by rw [log, List.append_nil]
  calls := by rw [Interpreter.calls, observer, List.map_nil, List.append_nil]; rfl

theorem Grown.trans {new later : List (Sighting size)} (first : Grown s t new)
    (rest : Grown t left later) : Grown s left (new ++ later) where
  log := by rw [rest.log, first.log, List.append_assoc]
  calls := by rw [rest.calls, first.calls, List.map_append, List.append_assoc]

theorem grown_ask (hooks : s.interpreter.hooks = h.recorded) {pc : Int} {word : Word} {go : Bool}
    (asks : s.ask pc word = (go, left)) :
    ∃ new, Grown s left new ∧ ∀ x ∈ new, x = ⟨.asked pc word, s.machine⟩ := by
  simp only [ask, hooks, Hooks.recorded] at asks
  cases present : h.onInstruction with
  | none =>
    simp only [present, Option.map_none] at asks
    cases asks
    exact ⟨[], .still rfl rfl, List.forall_mem_nil _⟩
  | some hook =>
    simp only [present, Option.map_some] at asks
    cases asks
    exact ⟨_, ⟨rfl, rfl⟩, by simp⟩

theorem grown_told (hooks : s.interpreter.hooks = h.recorded) (store : Store) :
    ∃ new, Grown s (s.told store) new ∧ ∀ x ∈ new, ∃ go, x = ⟨.told store go, s.machine⟩ := by
  cases present : h.onStore with
  | none =>
    simp only [told, tell, hooks, Hooks.recorded, present, Option.map_none]
    exact ⟨[], .still rfl rfl, List.forall_mem_nil _⟩
  | some hook =>
    simp only [told, tell, hooks, Hooks.recorded, present, Option.map_some]
    refine ⟨[⟨.told store (hook s.interpreter.observer.1 store).1, s.machine⟩], ?_, by simp⟩
    cases (hook s.interpreter.observer.1 store).1 <;> exact ⟨rfl, rfl⟩

theorem machine_told (s : Logged σ size) (store : Store) : (s.told store).machine = s.machine := by
  rw [machine, interpreter_told, Interpreter.tell_eq]
  rfl

theorem grown_foldl_told (hooks : s.interpreter.hooks = h.recorded) (stores : List Store) :
    ∃ new, Grown s (stores.foldl told s) new ∧
      ∀ x ∈ new, ∃ store go, x = ⟨.told store go, s.machine⟩ := by
  induction stores generalizing s with
  | nil => exact ⟨[], .still rfl rfl, List.forall_mem_nil _⟩
  | cons store stores ih =>
    have kept : (s.told store).interpreter.hooks = h.recorded := by
      rw [interpreter_told, Interpreter.tell_eq]
      exact hooks
    obtain ⟨first, grown, here⟩ := grown_told hooks store
    obtain ⟨rest, grown', later⟩ := ih kept
    refine ⟨first ++ rest, grown.trans grown', fun x member => ?_⟩
    rcases List.mem_append.1 member with member | member
    · obtain ⟨go, rfl⟩ := here x member
      exact ⟨store, go, rfl⟩
    · obtain ⟨store', go, rfl⟩ := later x member
      exact ⟨store', go, by rw [machine_told]⟩

theorem machine_noted (s : Logged σ size) (stores : List Store) :
    (s.noted stores).machine = s.machine := by
  rw [machine, interpreter_noted, Interpreter.machine_noteStores]
  rfl

theorem grown_noted (hooks : s.interpreter.hooks = h.recorded) (stores : List Store) :
    ∃ new, Grown s (s.noted stores) new ∧
      ∀ x ∈ new, ∃ store go, x = ⟨.told store go, s.machine⟩ := by
  obtain ⟨new, grown, told⟩ := grown_foldl_told (s := s.forgot stores) hooks stores
  exact ⟨new, ⟨grown.log, grown.calls⟩, told⟩

theorem grown_fetch {pc : Int} {result : Except Cause Record}
    (found : (StepProcedure.fetch pc).made s = (result, t)) :
    Grown s t [] ∧ t.machine.bare = s.machine.bare ∧ t.interpreter.hooks = s.interpreter.hooks := by
  have fetch : s.interpreter.fetch pc = ((s.interpreter.fetch pc).1, (s.interpreter.fetch pc).2) :=
    rfl
  have kept := Interpreter.fetch_keeps fetch
  rw [StepProcedure.made_fetch] at found
  cases found
  refine ⟨.still rfl ?_, (Interpreter.fetch_leaves fetch).1, ?_⟩
  · exact congrArg (·.observer) kept
  · exact congrArg (·.hooks) kept

/-- Each call of a step finds the machine as it is at that moment. -/
theorem sighted (hooks : s.interpreter.hooks = h.recorded) {result : Except Fault Bool}
    (made : StepProcedure.step.made s = (result, left)) :
    ∃ new, Grown s left new ∧ ∀ x ∈ new, x.InTime s.machine left.machine := by
  cases stepped made with
  | polled waiting => exact ⟨[], .still rfl rfl, nofun⟩
  | unfetched active found => exact ⟨[], (grown_fetch found).1, nofun⟩
  | vetoed active found asks =>
    obtain ⟨grown, same, kept⟩ := grown_fetch found
    obtain ⟨new, grown', asked⟩ := grown_ask (kept.trans hooks) asks
    refine ⟨[] ++ new, grown.trans grown', fun x member => ?_⟩
    obtain rfl := asked x member
    exact same
  | @failed r fetched asked left cause active found asks failed =>
    obtain ⟨grown, same, kept⟩ := grown_fetch found
    obtain ⟨new, grown', called⟩ := grown_ask (kept.trans hooks) asks
    -- A refused instruction has told nothing.
    obtain rfl := r.atomic_execute _ _ _ failed
    have grown := grown.trans grown'
    refine ⟨[] ++ new, ⟨grown.log, grown.calls⟩, fun x member => ?_⟩
    obtain rfl := called x member
    exact same
  | @executed r fetched asked left active found asks executed =>
    obtain ⟨grown, same, kept⟩ := grown_fetch found
    obtain ⟨new, grown', called⟩ := grown_ask (kept.trans hooks) asks
    rw [Record.made_execute] at executed
    cases done : (asked.passed s.processor.pc).machine.execute r.typed with
    | error cause =>
      rw [done] at executed
      cases executed
    | ok result =>
      rw [done] at executed
      cases executed
      have still : asked.interpreter.hooks = h.recorded := by
        rw [Interpreter.ask_keeps (interpreter_ask asks)]
        exact kept.trans hooks
      have before := grown.trans grown'
      obtain ⟨later, grown'', told⟩ :=
        grown_noted (s := (asked.passed s.processor.pc).onMachine fun _ => result.1) still result.2
      have moved := Grown.trans (t := (asked.passed s.processor.pc).onMachine fun _ => result.1)
        ⟨before.log, before.calls⟩ grown''
      refine ⟨_, moved, fun x member => ?_⟩
      rcases List.mem_append.1 member with member | member
      · obtain rfl := called x member
        exact same
      · obtain ⟨store, go, rfl⟩ := told x member
        exact (machine_noted _ _).symm

end Logged

namespace Interpreter

def Clear (ts : List Turn) : Prop :=
  ∀ t, ts.getLast? = some t → t.clears = true

theorem quiet_of_clear {i : Interpreter σ size} (quiet : i.stopRequested = false) {ts : List Turn}
    (clear : Clear ts) : (i.turns ts).stopRequested = false := by
  rcases List.eq_nil_or_concat ts with rfl | ⟨ts, t, rfl⟩
  · exact quiet
  · rw [List.concat_eq_append] at clear ⊢
    have clears := clear t List.getLast?_concat
    rw [turns_append]
    cases t with
    | takeStopRequest => rfl
    | reset => rfl
    | step => cases clears
    | arrange processor keypad => cases clears

/-- What the calls that some turns make tell of these turns. -/
structure Accounted (i : Interpreter σ size) (ts : List Turn) : Prop where
  -- Keeping a record of the calls changes nothing.
  unrecorded : (i.recorded.turns ts).unrecorded i.hooks = i.turns ts
  -- Storing what was told gives memory as it is left.
  bytes : (i.turns ts).machine.memory.bytes =
    replay i.machine.memory.bytes (i.recorded.turns ts).calls
  inside : ∀ store go, .told store go ∈ (i.recorded.turns ts).calls → store.address < size
  -- One more step makes the calls that the machine before it has it make.
  step : ∃ heard, (i.turns ts).machine.Heard heard ∧
    (i.recorded.turns (ts ++ [.step])).calls = (i.recorded.turns ts).calls ++ heard
  -- Carried out effect by effect, that step makes these calls: it asks before anything is done and
  -- tells when everything is.
  sighted : ∃ left, (StepProcedure.step.made ⟨i.recorded.turns ts, []⟩).2 = left ∧
    left.interpreter = i.recorded.turns (ts ++ [.step]) ∧
    left.interpreter.calls = (i.recorded.turns ts).calls ++ left.log.map (·.call) ∧
    ∀ sighting ∈ left.log,
      sighting.InTime (i.turns ts).machine (i.turns (ts ++ [.step])).machine
  -- Had the hook refused the instruction, nothing would have been done.
  refusable : (i.turns ts).machine.processor.waiting = false →
    ({ i.turns ts with hooks := i.hooks.refusing }.step).2.machine.bare = (i.turns ts).machine.bare
  -- No other turn makes a call.
  other : ∀ t, t ≠ .step → (i.recorded.turns (ts ++ [t])).calls = (i.recorded.turns ts).calls
  -- A request to stop is there to be taken if a store was refused since the last one was taken or
  -- the last reset.
  stops : ∀ earlier later, ts = earlier ++ later → Clear earlier → (∀ t ∈ later, t.clears = false) →
    ∃ since, (i.recorded.turns ts).calls = (i.recorded.turns earlier).calls ++ since ∧
      ((i.turns ts).takeStopRequest.1 = true ↔ ∃ store, .told store false ∈ since)

/-- A step that is kept from its instruction has done nothing but fetch it. -/
theorem bare_step_refusing {i : Interpreter σ size} {h : Hooks σ} (present : h.onInstruction.isSome)
    (hooks : i.hooks = h.refusing) (active : i.machine.processor.waiting = false) :
    i.step.2.machine.bare = i.machine.bare := by
  obtain ⟨hook, found⟩ := Option.isSome_iff_exists.1 present
  have refuses {j k : Interpreter σ size} {pc : Int} {word : Word} {go : Bool}
      (kept : j.hooks = i.hooks) (ask : j.ask pc word = (go, k)) : go = false := by
    simp only [Interpreter.ask, kept, hooks, Hooks.refusing, found, Option.map_some] at ask
    cases ask
    rfl
  cases step : i.step with
  | mk result left =>
    cases stepped step with
    | polled waiting => cases active.symm.trans waiting
    | unfetched _ fetch => exact (fetch_leaves fetch).1
    | vetoed _ fetch ask =>
      rw [ask_keeps ask]
      exact (fetch_leaves fetch).1
    | failed _ fetch ask failed => cases refuses (by rw [fetch_keeps fetch]) ask
    | executed _ fetch ask done => cases refuses (by rw [fetch_keeps fetch]) ask

theorem any_refused {calls : List HookCall} :
    calls.any HookCall.refused = true ↔ ∃ store, .told store false ∈ calls := by
  rw [List.any_eq_true]
  constructor
  · rintro ⟨call, member, refused⟩
    cases call with
    | asked pc word => cases refused
    | told store go =>
      cases go with
      | true => cases refused
      | false => exact ⟨store, member⟩
  · rintro ⟨store, member⟩
    exact ⟨_, member, rfl⟩

/-- Hooks that let every instruction run are told everything, in order, with a sound cache and
without one. -/
theorem accounted (i : Interpreter σ size) (watched : i.hooks.Watched) (coherent : i.Coherent)
    (quiet : i.stopRequested = false) (ts : List Turn) : i.Accounted ts := by
  have sound : i.recorded.Coherent := coherent
  have hooks (ts : List Turn) : (i.recorded.turns ts).hooks = i.hooks.recorded :=
    hooks_turns i.recorded ts
  have plain (ts : List Turn) : (i.recorded.turns ts).unrecorded i.hooks = i.turns ts :=
    (turns_unrecorded (hooks []) ts).symm
  have machine (ts : List Turn) : (i.turns ts).machine = (i.recorded.turns ts).machine := by
    rw [← plain]
    rfl
  obtain ⟨heard, noted, -⟩ := sound.noted_turns watched (hooks []) ts
  have all : (i.recorded.turns ts).calls = heard := noted.calls
  exact {
    unrecorded := plain ts
    bytes := by
      rw [machine, noted.bytes, all]
      rfl
    inside := by
      rw [all]
      exact noted.inside
    step := by
      have step : (i.recorded.turns ts).step =
        ((i.recorded.turns ts).step.1, (i.recorded.turns ts).step.2) := rfl
      obtain ⟨next, noted, calls, -⟩ := (sound.turns ts).noted_step watched (hooks ts) step
      rw [machine, turns_append]
      exact ⟨next, calls, noted.calls⟩
    sighted := by
      have stepped := congrArg Prod.snd (Logged.step_eq_made ⟨i.recorded.turns ts, []⟩)
      rw [← turn, ← turns_nil (turn _ _), ← turns_cons, ← turns_append] at stepped
      match made : StepProcedure.step.made ⟨i.recorded.turns ts, []⟩ with
      | (result, left) =>
        rw [made] at stepped
        obtain ⟨new, grown, inTime⟩ := Logged.sighted (hooks ts) made
        refine ⟨left, rfl, stepped.symm, ?_, fun sighting member => ?_⟩
        · rw [grown.log]
          exact grown.calls
        · rw [grown.log] at member
          rw [machine, machine, stepped]
          exact inTime sighting member
    refusable := fun active =>
      bare_step_refusing (i := { i.turns ts with hooks := _ }) (by
        obtain ⟨hook, present, -⟩ := watched.asks
        rw [present]
        rfl) rfl active
    other := fun t other => by
      rw [turns_append]
      exact (calls_turn _ other).calls.trans (List.append_nil _)
    stops := by
      rintro earlier later rfl clear keeps
      obtain ⟨since, noted, stops⟩ :=
        (sound.turns earlier).noted_turns watched (hooks earlier) later
      have before : (i.recorded.turns earlier).stopRequested = false :=
        quiet_of_clear (i := i.recorded) quiet clear
      have pending : (i.turns (earlier ++ later)).stopRequested = since.any HookCall.refused := by
        rw [← plain, turns_append]
        exact (stops keeps).trans (by rw [before, Bool.false_or])
      refine ⟨since, ?_, ?_⟩
      · rw [turns_append]
        exact noted.calls
      · rw [← any_refused, ← pending]
        rfl }

/-- A program that stores a zero, which its hook refuses, and then returns to nowhere. -/
def storeZero : Interpreter Nat 8 where
  machine := {
    processor := { pc := 0, index := 4 }
    memory := ⟨#v[0xF0, 0x55, 0x00, 0xEE, 0xFF, 0, 0, 0], none⟩
    screen := .blank
    keypad := .released
    random := ⟨.replicate 624 0, 0⟩ }
  cache := none
  hooks := {
    onInstruction := some fun count _ _ => (true, count + 1)
    onStore := some fun count store => (store.value != 0, count) }
  observer := 0
  stopRequested := false

theorem accounted_storeZero :
    let ts := [.step, .takeStopRequest, .step]
    (storeZero.recorded.turns ts).calls = [.asked 0 0xF055, .told ⟨4, 0⟩ false, .asked 2 0x00EE] ∧
      storeZero.hooks.Watched ∧ storeZero.Coherent ∧ storeZero.stopRequested = false ∧
        storeZero.Accounted ts := by
  intro ts
  have watched : storeZero.hooks.Watched := ⟨⟨_, rfl, fun _ _ _ => rfl⟩, rfl⟩
  have coherent : storeZero.Coherent := by
    intro cache present
    cases present
  exact ⟨by decide +kernel, watched, coherent, rfl, accounted _ watched coherent rfl ts⟩

end Interpreter

end Chip8
