import Mathlib.Data.List.Induction
import Chip8.Proofs.DebuggedStep

/-! What a debugger answers, told by the calls that were made to it.

A check stops or does not depending on calls that may lie far back. What a debugger keeps for this
is fixed by the history of its calls alone: which addresses were set and not removed since, whether
the last check of an instruction stopped and nothing has armed its breakpoint again since, and the
last stop that nothing has made it forget since.
-/

set_option autoImplicit false

namespace Chip8

/-! ### Since when -/

section Since

variable {α : Type} {p q : α → Prop}

/-- Some entry is as `p` says, and no later one is as `q` says. -/
def Since (p q : α → Prop) (entries : List α) : Prop :=
  ∃ earlier entry later, entries = earlier ++ entry :: later ∧ p entry ∧ ∀ other ∈ later, ¬ q other

theorem not_since_nil : ¬ Since p q [] := by
  rintro ⟨earlier, entry, later, split, -⟩
  exact absurd split.symm (List.append_ne_nil_of_right_ne_nil earlier (List.cons_ne_nil entry later))

theorem Since.exists_mem {entries : List α} (since : Since p q entries) :
    ∃ entry ∈ entries, p entry := by
  obtain ⟨earlier, entry, later, rfl, holds, -⟩ := since
  exact ⟨entry, by simp, holds⟩

/-- The last entry decides, unless it is none of the two. -/
theorem since_concat {entries : List α} {last : α} :
    Since p q (entries ++ [last]) ↔ p last ∨ (Since p q entries ∧ ¬ q last) := by
  constructor
  · rintro ⟨earlier, entry, later, split, holds, after⟩
    -- Either the entry itself is the last one, or the last one is among those after it.
    rcases List.eq_nil_or_concat later with rfl | ⟨before, final, rfl⟩
    · obtain ⟨-, same⟩ := List.append_inj' split rfl
      obtain rfl : last = entry := List.singleton_inj.1 same
      exact .inl holds
    · rw [List.concat_eq_append, ← List.cons_append, ← List.append_assoc] at split
      obtain ⟨rfl, same⟩ := List.append_inj' split rfl
      obtain rfl : last = final := List.singleton_inj.1 same
      have kept : ∀ other ∈ before, ¬ q other := fun other member => after other (by simp [member])
      exact .inr ⟨⟨earlier, entry, before, rfl, holds, kept⟩, after last (by simp)⟩
  · rintro (holds | ⟨⟨earlier, entry, later, rfl, holds, after⟩, kept⟩)
    · exact ⟨entries, last, [], rfl, holds, nofun⟩
    · refine ⟨earlier, entry, later ++ [last], by simp, holds, fun other member => ?_⟩
      rcases List.mem_append.1 member with member | member
      · exact after other member
      · obtain rfl := List.mem_singleton.1 member
        exact kept

theorem since_append {entries more : List α} :
    Since p q (entries ++ more) ↔
      Since p q more ∨ (Since p q entries ∧ ∀ other ∈ more, ¬ q other) := by
  induction more using List.reverseRecOn with
  | nil => simp [not_since_nil]
  | append_singleton more last ih =>
    rw [← List.append_assoc, since_concat, ih, since_concat]
    simp only [List.mem_append, List.mem_singleton]
    grind

end Since

namespace Debugger

/-! ### Calls -/

inductive Call where
  | addBreakpoint (address : Int)
  | removeBreakpoint (address : Int)
  | addWatchpoint (address : Int)
  | removeWatchpoint (address : Int)
  | clearEvent
  | clearPass
  | clearAll
  -- Check an instruction that is about to run. Its word takes no part.
  | checkInstruction (pc opcode : Int)
  | checkWrite (address value : Int)
  deriving DecidableEq, Repr

/-- Serve a call. The answer is whether the program may go on, which only checks ever deny. -/
def perform (d : Debugger) : Call → Bool × Debugger
  | .addBreakpoint address => (true, d.addBreakpoint address)
  | .removeBreakpoint address => (true, d.removeBreakpoint address)
  | .addWatchpoint address => (true, d.addWatchpoint address)
  | .removeWatchpoint address => (true, d.removeWatchpoint address)
  | .clearEvent => (true, d.clearEvent)
  | .clearPass => (true, d.clearPass)
  | .clearAll => (true, d.clearAll)
  | .checkInstruction pc _ => d.checkInstruction pc
  | .checkWrite address value => d.checkWrite address value

abbrev History := List (Call × Bool)

def performAll (d : Debugger) : List Call → History × Debugger
  | [] => ([], d)
  | call :: calls =>
    let (answer, d) := d.perform call
    let (history, d) := d.performAll calls
    ((call, answer) :: history, d)

theorem performAll_cons (d : Debugger) (call : Call) (calls : List Call) :
    d.performAll (call :: calls) =
      ((call, (d.perform call).1) :: ((d.perform call).2.performAll calls).1,
        ((d.perform call).2.performAll calls).2) := rfl

theorem map_fst_performAll (d : Debugger) (calls : List Call) :
    (d.performAll calls).1.map Prod.fst = calls := by
  induction calls generalizing d with
  | nil => rfl
  | cons call calls ih => rw [performAll_cons, List.map_cons, ih]

/-! ### Histories -/

def Call.checked? : Call → Option Int
  | checkInstruction pc _ => some pc
  | _ => none

def stop? : Call × Bool → Option StopEvent
  | (.checkInstruction pc _, false) => some { reason := .breakpoint pc }
  | (.checkWrite address value, false) => some { reason := .write address value }
  | _ => none

namespace History

/-- Something was set and, since then, neither removed nor cleared with all the rest. -/
def IsSet (set remove : Call) : History → Prop :=
  Since (fun entry => entry.1 = set) fun entry => entry.1 = remove ∨ entry.1 = .clearAll

def Breaks (history : History) (address : Int) : Prop :=
  history.IsSet (.addBreakpoint address) (.removeBreakpoint address)

def Watches (history : History) (address : Int) : Prop :=
  history.IsSet (.addWatchpoint address) (.removeWatchpoint address)

/-- The last check of an instruction stopped at an address, and nothing has taken the pass away since
then. -/
def Resumes (history : History) (pc : Int) : Prop :=
  Since (fun entry => entry.1.checked? = some pc ∧ entry.2 = false)
    (fun entry => entry.1.checked? ≠ none ∨ entry.1 = .clearPass ∨ entry.1 = .clearAll) history

/-- The last stop had an event, which has not been forgotten since then. -/
def LastStop (history : History) (event : StopEvent) : Prop :=
  Since (fun entry => stop? entry = some event)
    (fun entry => stop? entry ≠ none ∨ entry.1 = .clearEvent ∨ entry.1 = .clearAll) history

end History

/-! ### What a debugger keeps of its history -/

structure Takes (d : Debugger) (entry : Call × Bool) (after : Debugger) : Prop where
  breakpoints : ∀ address, address ∈ after.breakpoints ↔ entry.1 = .addBreakpoint address ∨
    (address ∈ d.breakpoints ∧ ¬ (entry.1 = .removeBreakpoint address ∨ entry.1 = .clearAll))
  watchpoints : ∀ address, address ∈ after.watchpoints ↔ entry.1 = .addWatchpoint address ∨
    (address ∈ d.watchpoints ∧ ¬ (entry.1 = .removeWatchpoint address ∨ entry.1 = .clearAll))
  pass : ∀ pc, after.pass = some pc ↔ (entry.1.checked? = some pc ∧ entry.2 = false) ∨
    (d.pass = some pc ∧
      ¬ (entry.1.checked? ≠ none ∨ entry.1 = .clearPass ∨ entry.1 = .clearAll))
  lastEvent : ∀ event, after.lastEvent = some event ↔ stop? entry = some event ∨
    (d.lastEvent = some event ∧
      ¬ (stop? entry ≠ none ∨ entry.1 = .clearEvent ∨ entry.1 = .clearAll))

theorem takes_perform (d : Debugger) (call : Call) :
    d.Takes (call, (d.perform call).1) (d.perform call).2 := by
  cases call with
  | checkInstruction pc opcode =>
    rw [perform]
    by_cases blocks : d.Blocks pc
    · rw [checkInstruction_of_blocks blocks]
      constructor <;> simp [stoppedAt, Call.checked?, stop?]
    · rw [checkInstruction_of_passes blocks]
      constructor <;> simp [clearPass, Call.checked?, stop?]
  | checkWrite address value =>
    rw [perform, checkWrite]
    split
    · constructor <;> simp [Call.checked?, stop?]
    · constructor <;> simp [Call.checked?, stop?]
  | clearAll => constructor <;> simp [perform, Debugger.clearAll, Call.checked?, stop?]
  | _ =>
    constructor <;> simp [perform, addBreakpoint, removeBreakpoint, addWatchpoint, removeWatchpoint,
      clearEvent, clearPass, Call.checked?, stop?, eq_comm]

/-- All that a debugger keeps is told by its history. -/
structure Recalls (d : Debugger) (history : History) : Prop where
  breakpoints : ∀ address, address ∈ d.breakpoints ↔ history.Breaks address
  watchpoints : ∀ address, address ∈ d.watchpoints ↔ history.Watches address
  pass : ∀ pc, d.pass = some pc ↔ history.Resumes pc
  lastEvent : ∀ event, d.lastEvent = some event ↔ history.LastStop event

theorem recalls_new : Recalls {} [] where
  breakpoints address := iff_of_false (AddressSet.not_mem_empty address) not_since_nil
  watchpoints address := iff_of_false (AddressSet.not_mem_empty address) not_since_nil
  pass _ := iff_of_false nofun not_since_nil
  lastEvent _ := iff_of_false nofun not_since_nil

variable {d after : Debugger} {history : History}

theorem Recalls.takes (recalls : d.Recalls history) {entry : Call × Bool}
    (takes : d.Takes entry after) : after.Recalls (history ++ [entry]) where
  breakpoints address := by
    simp only [takes.breakpoints, recalls.breakpoints, History.Breaks, History.IsSet, since_concat]
  watchpoints address := by
    simp only [takes.watchpoints, recalls.watchpoints, History.Watches, History.IsSet, since_concat]
  pass pc := by simp only [takes.pass, recalls.pass, History.Resumes, since_concat]
  lastEvent event := by
    simp only [takes.lastEvent, recalls.lastEvent, History.LastStop, since_concat]

theorem Recalls.perform (recalls : d.Recalls history) (call : Call) :
    (d.perform call).2.Recalls (history ++ [(call, (d.perform call).1)]) :=
  recalls.takes (d.takes_perform call)

theorem Recalls.performAll (recalls : d.Recalls history) (calls : List Call) :
    (d.performAll calls).2.Recalls (history ++ (d.performAll calls).1) := by
  induction calls generalizing d history with
  | nil => simpa [Debugger.performAll] using recalls
  | cons call calls ih =>
    have later := ih (recalls.perform call)
    rw [List.append_assoc] at later
    exact later

/-- Each call was answered by a debugger that recalls what was before it. -/
theorem Recalls.answered (recalls : d.Recalls history) {calls : List Call} {earlier later : History}
    {entry : Call × Bool} (split : (d.performAll calls).1 = earlier ++ entry :: later) :
    ∃ before : Debugger, before.Recalls (history ++ earlier) ∧
      (before.perform entry.1).1 = entry.2 := by
  induction calls generalizing d history earlier with
  | nil => exact absurd split.symm (List.append_ne_nil_of_right_ne_nil _ (List.cons_ne_nil _ _))
  | cons call calls ih =>
    rw [performAll_cons] at split
    cases earlier with
    | nil =>
      obtain ⟨rfl, -⟩ := List.cons.inj split
      exact ⟨d, by rwa [List.append_nil], rfl⟩
    | cons first earlier =>
      obtain ⟨rfl, rest⟩ := List.cons.inj split
      obtain ⟨before, recalled, answer⟩ := ih (recalls.perform call) rest
      rw [List.append_assoc] at recalled
      exact ⟨before, recalled, answer⟩

/-! ### What checks answer -/

theorem checkInstruction_eq_false_iff {pc : Int} :
    (d.checkInstruction pc).1 = false ↔ d.Blocks pc := by
  by_cases blocks : d.Blocks pc
  · simp [checkInstruction_of_blocks blocks, blocks]
  · simp [checkInstruction_of_passes blocks, blocks]

theorem checkWrite_eq_false_iff {address value : Int} :
    (d.checkWrite address value).1 = false ↔ address ∈ d.watchpoints := by
  unfold checkWrite
  split <;> simp_all

theorem Recalls.stops_iff (recalls : d.Recalls history) {pc : Int} :
    (d.checkInstruction pc).1 = false ↔ history.Breaks pc ∧ ¬ history.Resumes pc := by
  rw [checkInstruction_eq_false_iff, Blocks, recalls.breakpoints, ne_eq, recalls.pass]

/-- Whether a check resumes depends on the last check before it, and on what took its pass away. -/
theorem History.resumes_iff {pc opcode : Int} {answer : Bool} {between : History}
    (unchecked : ∀ entry ∈ between, entry.1.checked? = none) :
    History.Resumes (history ++ (.checkInstruction pc opcode, answer) :: between) pc ↔
      answer = false ∧ ∀ entry ∈ between, ¬ (entry.1 = .clearPass ∨ entry.1 = .clearAll) := by
  have nothing : ¬ History.Resumes between pc := by
    intro resumes
    obtain ⟨entry, member, checked, -⟩ := resumes.exists_mem
    rw [unchecked entry member] at checked
    cases checked
  unfold Resumes at nothing ⊢
  rw [← List.singleton_append, ← List.append_assoc, since_append, or_iff_right nothing, since_concat]
  constructor
  · rintro ⟨⟨-, stopped⟩ | ⟨-, other⟩, kept⟩
    · exact ⟨stopped, fun entry member clears => kept entry member (.inr clears)⟩
    · exact absurd (.inl nofun) other
  · rintro ⟨rfl, kept⟩
    refine ⟨.inl ⟨rfl, rfl⟩, fun entry member => ?_⟩
    rintro (checked | clears)
    · exact checked (unchecked entry member)
    · exact kept entry member clears

/-- A check stops at a breakpoint exactly if it does not resume from it. So of two checks at a
breakpoint with none between them, one passes and one stops, unless the pass was taken away. The last
event is that of the last stop, unless it was forgotten. -/
theorem passed_only_by_resuming {calls : List Call} {history : History} {d : Debugger}
    (served : ({} : Debugger).performAll calls = (history, d)) :
    history.map Prod.fst = calls ∧ (∀ address, address ∈ d.breakpoints ↔ history.Breaks address) ∧
    (∀ (earlier later : History) (pc opcode : Int) (answer : Bool),
      history = earlier ++ (.checkInstruction pc opcode, answer) :: later →
        (answer = false ↔ earlier.Breaks pc ∧ ¬ earlier.Resumes pc)) ∧
    (∀ (earlier later : History) (address value : Int) (answer : Bool),
      history = earlier ++ (.checkWrite address value, answer) :: later →
        (answer = false ↔ earlier.Watches address)) ∧
    (∀ (earlier between later : History) (pc opcode again : Int) (first second : Bool),
      history = earlier ++ (.checkInstruction pc opcode, first) :: between ++
          (.checkInstruction pc again, second) :: later →
        (∀ entry ∈ between, entry.1.checked? = none) →
        History.Breaks (earlier ++ (.checkInstruction pc opcode, first) :: between) pc →
          ¬ (first = true ∧ second = true) ∧
          (first = false ∧ second = false →
            ∃ entry ∈ between, entry.1 = .clearPass ∨ entry.1 = .clearAll)) ∧
    ∀ event, d.lastEvent = some event ↔ history.LastStop event := by
  obtain ⟨rfl, rfl⟩ := Prod.mk.inj served
  have recalls := recalls_new.performAll calls
  have verdict (earlier later : History) (pc opcode : Int) (answer : Bool)
      (split : (({} : Debugger).performAll calls).1 =
        earlier ++ (.checkInstruction pc opcode, answer) :: later) :
      answer = false ↔ earlier.Breaks pc ∧ ¬ earlier.Resumes pc := by
    obtain ⟨before, recalled, answered⟩ := recalls_new.answered split
    obtain rfl : (before.checkInstruction pc).1 = answer := answered
    exact recalled.stops_iff
  refine ⟨map_fst_performAll _ calls, recalls.breakpoints, verdict, ?_, ?_, recalls.lastEvent⟩
  · intro earlier later address value answer split
    obtain ⟨before, recalled, answered⟩ := recalls_new.answered split
    obtain rfl : (before.checkWrite address value).1 = answer := answered
    exact checkWrite_eq_false_iff.trans (recalled.watchpoints address)
  -- The second check resumes exactly if the first stopped and nothing between cleared its pass.
  intro earlier between later pc opcode again first second split unchecked breaks
  have stops := verdict _ _ _ _ _ split
  rw [History.resumes_iff unchecked] at stops
  refine ⟨fun ⟨passed, passedAgain⟩ => ?_, fun ⟨stopped, stoppedAgain⟩ => ?_⟩
  · have stoppedAgain : second = false :=
      stops.2 ⟨breaks, fun resumes => by simp [passed] at resumes⟩
    simp [passedAgain] at stoppedAgain
  · obtain ⟨-, notResumed⟩ := stops.1 stoppedAgain
    by_contra none
    exact notResumed ⟨stopped, fun entry member clears => none ⟨entry, member, clears⟩⟩

/-- A jump on the spot, with a breakpoint that is armed again after it stopped the jump. -/
theorem passed_only_by_resuming_armedAgain :
    ∃ d, ({} : Debugger).performAll [.addBreakpoint 0x204, .checkInstruction 0x204 0x1204, .clearPass,
        .checkInstruction 0x204 0x1204] =
      ([(.addBreakpoint 0x204, true), (.checkInstruction 0x204 0x1204, false), (.clearPass, true),
        (.checkInstruction 0x204 0x1204, false)], d) ∧
      d.lastEvent = some { reason := .breakpoint 0x204 } ∧
      History.LastStop [(.addBreakpoint 0x204, true), (.checkInstruction 0x204 0x1204, false),
        (.clearPass, true), (.checkInstruction 0x204 0x1204, false)] { reason := .breakpoint 0x204 } ∧
      ¬ History.Resumes [(.addBreakpoint 0x204, true), (.checkInstruction 0x204 0x1204, false),
        (.clearPass, true)] 0x204 ∧
      ∃ entry ∈ ([(.clearPass, true)] : History), entry.1 = .clearPass ∨ entry.1 = .clearAll := by
  obtain ⟨-, -, verdict, -, twice, last⟩ := @passed_only_by_resuming [.addBreakpoint 0x204,
    .checkInstruction 0x204 0x1204, .clearPass, .checkInstruction 0x204 0x1204] _ _ rfl
  obtain ⟨breaks, fresh⟩ := (verdict [(.addBreakpoint 0x204, true),
    (.checkInstruction 0x204 0x1204, false), (.clearPass, true)] [] 0x204 0x1204 false rfl).1 rfl
  obtain ⟨-, cleared⟩ := twice [(.addBreakpoint 0x204, true)] [(.clearPass, true)] [] 0x204 0x1204
    0x1204 false false rfl (by simp [Call.checked?]) breaks
  exact ⟨_, rfl, rfl, (last _).1 rfl, fresh, cleared ⟨rfl, rfl⟩⟩

end Debugger

end Chip8
