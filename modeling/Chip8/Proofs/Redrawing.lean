import Chip8.Proofs.Footprint
import Chip8.Proofs.RequestRun
import Chip8.Proofs.ScreenViews

/-! When a host has to draw the screen again.

The screen is marked as changed until its buffer is taken. Nothing that programs and hosts do to it
takes the mark away, and what they do without marking it leaves it as it was. So a screen without the
mark has the buffer that was taken last.
-/

set_option autoImplicit false

namespace Chip8

open Interpreter (Ran stepped fetch_leaves ask_keeps machine_noteStores)

variable {σ : Type} {size : Nat}

namespace Screen

variable {s t u : Screen}

def Marks (s t : Screen) : Prop :=
  t = s ∨ t.changed = true

theorem Marks.refl : Marks s s :=
  .inl rfl

theorem Marks.trans (first : Marks s t) (second : Marks t u) : Marks s u := by
  rcases second with rfl | marked
  · exact first
  · exact .inr marked

theorem Marks.changed (marks : Marks s t) (marked : s.changed = true) : t.changed = true := by
  rcases marks with rfl | after
  · exact marked
  · exact after

theorem draw_of_short {bits : List Bool} (x y : Int) (short : bits.length < 8) :
    (s.draw x y bits).2 = s := by
  have nothing : spriteCells x y bits = [] := by simp [spriteCells, Nat.div_eq_of_lt short]
  have small : ¬ 8 ≤ bits.length := Nat.not_le.2 short
  simp [draw, nothing, small]

theorem marks_draw (s : Screen) (x y : Int) (bits : List Bool) : Marks s (s.draw x y bits).2 := by
  rcases Nat.lt_or_ge bits.length 8 with short | full
  · exact .inl (draw_of_short x y short)
  · exact .inr (by simp [draw, full])

theorem marks_look {view : View} (other : view ≠ .buffer) : Marks s (s.look view).2 :=
  .inl (by rw [snd_look, if_neg other])

end Screen

open Screen (Marks)

/-! ### Programs -/

namespace Machine

variable {m n : Machine size} {stores : List Store}

theorem marks_execute {i : Instruction} (done : m.execute i = .ok (n, stores)) :
    Marks m.screen n.screen := by
  by_cases onScreen : i.part? = some .screen
  · cases i with
    | clear =>
      cases done
      exact .inr rfl
    | draw x y rows =>
      obtain ⟨p, memory, screen, keypad, random⟩ := m
      simp only [execute, draw] at done
      split at done
      · cases done
      · cases done
        exact screen.marks_draw _ _ _
    | _ => cases onScreen
  · exact .inl ((confined done).screen onScreen)

theorem screen_poll (m : Machine size) : m.poll.screen = m.screen := by
  unfold poll
  split
  · rfl
  · rfl

end Machine

namespace Interpreter

theorem screen_fetch {i fetched : Interpreter σ size} {pc : Int} {result : Except Cause Decoded}
    (fetch : i.fetch pc = (result, fetched)) : fetched.machine.screen = i.machine.screen := by
  rw [← Machine.screen_bare, (fetch_leaves fetch).1, Machine.screen_bare]

theorem marks_step {i j : Interpreter σ size} {result : Except Fault Bool}
    (step : i.step = (result, j)) : Marks i.machine.screen j.machine.screen := by
  cases stepped step with
  | polled waiting => exact .inl i.machine.screen_poll
  | unfetched active fetch => exact .inl (screen_fetch fetch)
  | vetoed active fetch ask =>
    have kept := screen_fetch fetch
    rw [ask_keeps ask]
    exact .inl kept
  | failed active fetch ask failed =>
    have kept := screen_fetch fetch
    rw [ask_keeps ask]
    exact .inl kept
  | executed active fetch ask done =>
    have marks := Machine.marks_execute done
    rw [ask_keeps ask] at marks
    rw [machine_noteStores, ← screen_fetch fetch]
    exact marks

theorem Ran.marks {i j : Interpreter σ size} {steps count : Nat} {halt : Halt}
    (way : Ran i steps halt count j) : Marks i.machine.screen j.machine.screen := by
  induction way with
  | completed => exact .refl
  | failed step => exact marks_step step
  | vetoed step => exact marks_step step
  | requested step requested =>
    have marks := marks_step step
    exact marks
  | more step quiet rest ih => exact (marks_step step).trans ih

end Interpreter

/-! ### Hosts -/

namespace Emulator

variable {e : Emulator}

theorem LeadsTo.marks {i : Interpreter Debugger memorySize} {steps : Nat} {m : Machine memorySize}
    (leads : LeadsTo i steps m) : Marks i.machine.screen m.screen := by
  obtain ⟨halt, count, timers, j, way, rfl⟩ := leads
  exact way.marks

theorem marks_perform {request : Request} (other : request ≠ .takePixels) :
    Marks e.machine.screen (e.perform request).2.machine.screen := by
  by_cases reset : request = .reset
  · subst reset
    exact .inr rfl
  · cases run : e.runOf? request with
    | none => exact .inl (rests run reset other).screen_eq
    | some start =>
      rw [← machine_of_runs run]
      exact ((e.performed request).leadsTo run).marks

theorem screen_of_create {settings : Settings} {screen : Screen} {keypad : Keypad} {entropy : Int}
    (created : create settings screen keypad entropy = .ok e) : e.machine.screen = screen.clear := by
  unfold create at created
  split at created
  · cases created
  · cases created
    rfl

end Emulator

/-! ### What was taken -/

namespace Screen

/-- What may happen to a screen, other than that its buffer is taken. -/
inductive Operated : Screen → Screen → Prop where
  | drawn (s : Screen) (x y : Int) (bits : List Bool) : Operated s (s.draw x y bits).2
  | cleared (s : Screen) : Operated s s.clear
  | looked (s : Screen) {view : View} : view ≠ .buffer → Operated s (s.look view).2
  | stepped {σ : Type} {size : Nat} (i : Interpreter σ size) :
      Operated i.machine.screen i.step.2.machine.screen
  | created {settings : Settings} {s : Screen} {keypad : Keypad} {entropy : Int} {e : Emulator} :
      Emulator.create settings s keypad entropy = .ok e → Operated s e.machine.screen
  | performed (e : Emulator) {request : Request} : request ≠ .takePixels →
      Operated e.machine.screen (e.perform request).2.machine.screen

/-- The screens that hosts meet, each with the buffer that was taken last. -/
inductive Met : Screen → Option (List UInt8) → Prop where
  | new : Met .blank none
  | operated {s t : Screen} {taken : Option (List UInt8)} :
      Met s taken → Operated s t → Met t taken
  | taken {s : Screen} {before : Option (List UInt8)} :
      Met s before → Met s.buffer.2 (some s.buffer.1)

theorem Operated.marks {s t : Screen} (operated : Operated s t) : Marks s t := by
  cases operated with
  | drawn _ x y bits => exact s.marks_draw x y bits
  | cleared => exact .inr rfl
  | looked _ other => exact marks_look other
  | stepped i => exact Interpreter.marks_step rfl
  | created created =>
    rw [Emulator.screen_of_create created]
    exact .inr rfl
  | performed e other => exact Emulator.marks_perform other

theorem Met.taken_eq {s : Screen} {taken : Option (List UInt8)} (met : Met s taken)
    (unmarked : s.changed = false) : taken = some s.buffer.1 := by
  induction met with
  | new => cases unmarked
  | operated earlier operated ih =>
    rcases operated.marks with rfl | marked
    · exact ih unmarked
    · rw [unmarked] at marked
      cases marked
  | taken earlier ih => rfl

/-- What an emulator hands out is the buffer that was taken. -/
theorem Met.perform_takePixels {e : Emulator} {before : Option (List UInt8)}
    (met : Met e.machine.screen before) :
    ∃ data, (e.perform .takePixels).1 = .ok (.bytes data) ∧
      Met (e.perform .takePixels).2.machine.screen (some data) :=
  ⟨_, rfl, .taken met⟩

/-- A screen that is not marked has the buffer that was taken last; and a mark stays until the buffer
is taken. -/
theorem unmarked_is_taken :
    (∀ (s : Screen) (taken : Option (List UInt8)), Met s taken → s.changed = false →
      taken = some s.buffer.1) ∧
    ∀ s t : Screen, Operated s t → s.changed = true → t.changed = true :=
  ⟨fun _ _ => Met.taken_eq, fun _ _ operated => operated.marks.changed⟩

def emptySprite : Interpreter Unit 2 where
  machine := {
    processor := { pc := 0 }
    memory := ⟨#v[0xD0, 0x10], none⟩
    screen := blank.buffer.2
    keypad := .released
    random := ⟨.replicate 624 0, 0⟩ }
  cache := none
  hooks := {}
  observer := ()
  stopRequested := false

theorem unmarked_is_taken_emptySprite :
    (emptySprite.step.1 = .ok true ∧ Met emptySprite.step.2.machine.screen (some blank.buffer.1) ∧
      emptySprite.step.2.machine.screen.changed = false ∧
      some blank.buffer.1 = some emptySprite.step.2.machine.screen.buffer.1) ∧
    Operated blank (blank.draw 0 0 (rowBits 0)).2 ∧ blank.changed = true ∧
      (blank.draw 0 0 (rowBits 0)).2.changed = true := by
  have met : Met emptySprite.step.2.machine.screen (some blank.buffer.1) :=
    .operated (.taken .new) (.stepped emptySprite)
  have unmarked : emptySprite.step.2.machine.screen.changed = false := by decide +kernel
  have drawn : Operated blank (blank.draw 0 0 (rowBits 0)).2 := .drawn blank 0 0 (rowBits 0)
  exact ⟨⟨rfl, met, unmarked, unmarked_is_taken.1 _ _ met unmarked⟩, drawn, rfl,
    unmarked_is_taken.2 _ _ drawn rfl⟩

end Screen

end Chip8
